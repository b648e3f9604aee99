import Ruxmsg.Cli.Utf8

namespace Ruxmsg.Cli

open Library.Machine

def maxConfigBytes : Nat := 16 * 1024

def minTickMs : Nat := 100

def maxTickMs : Nat := 1000

inductive NamedColor
  | black
  | red
  | green
  | yellow
  | blue
  | magenta
  | cyan
  | gray
  | darkGray
  | white
  deriving DecidableEq

inductive ColorSpec
  | named (color : NamedColor)
  | rgb (red green blue : Nat)
  deriving DecidableEq

inductive BorderStyle
  | plain
  | rounded
  | double
  | thick
  deriving DecidableEq

structure ThemeSpec where
  border : ColorSpec
  accent : ColorSpec
  «local» : ColorSpec
  remote : ColorSpec
  system : ColorSpec
  warning : ColorSpec
  dim : ColorSpec
  deriving DecidableEq

def ThemeSpec.default : ThemeSpec where
  border := .named .darkGray
  accent := .named .cyan
  «local» := .named .green
  remote := .named .yellow
  system := .named .magenta
  warning := .named .red
  dim := .named .gray

def KeyMap.all (keys : KeyMap) : List KeySpec :=
  [keys.leave, keys.rekey, keys.scrollUp, keys.scrollDown, keys.pageUp, keys.pageDown]

structure Config where
  theme : ThemeSpec
  keys : KeyMap
  border : BorderStyle
  tickMs : Nat
  deriving DecidableEq

def Config.default : Config where
  theme := .default
  keys := .default
  border := .plain
  tickMs := 250

structure RawTheme where
  border : Option Text := none
  accent : Option Text := none
  «local» : Option Text := none
  remote : Option Text := none
  system : Option Text := none
  warning : Option Text := none
  dim : Option Text := none

structure RawKeys where
  leave : Option Text := none
  rekey : Option Text := none
  scrollUp : Option Text := none
  scrollDown : Option Text := none
  pageUp : Option Text := none
  pageDown : Option Text := none

structure RawUi where
  border : Option Text := none
  tickMs : Option Nat := none

structure RawConfig where
  theme : Option RawTheme := none
  keys : Option RawKeys := none
  ui : Option RawUi := none

def hexDigit? (c : Char) : Option Nat :=
  if c.isDigit then some (c.toNat - 48)
  else if 'a' ≤ c ∧ c ≤ 'f' then some (c.toNat - 87)
  else if 'A' ≤ c ∧ c ≤ 'F' then some (c.toNat - 55)
  else none

def colorNames : List (String × NamedColor) :=
  [("black", .black), ("red", .red), ("green", .green), ("yellow", .yellow), ("blue", .blue),
    ("magenta", .magenta), ("cyan", .cyan), ("gray", .gray), ("grey", .gray), ("dark-gray", .darkGray),
    ("dark-grey", .darkGray), ("white", .white)]

def parseColor : Text → Except ConfigError ColorSpec
  | '#' :: hex =>
      match hex.mapM hexDigit? with
      | some [r, r', g, g', b, b'] => .ok (.rgb (r * 16 + r') (g * 16 + g') (b * 16 + b'))
      | _ => .error .invalidColor
  | text =>
      match colorNames.find? fun entry => entry.1.toList = text.map Char.toLower with
      | some (_, color) => .ok (.named color)
      | none => .error .invalidColor

def borderNames : List (String × BorderStyle) :=
  [("plain", .plain), ("rounded", .rounded), ("double", .double), ("thick", .thick)]

def parseBorder (text : Text) : Except ConfigError BorderStyle :=
  match borderNames.find? fun entry => entry.1.toList = text.map Char.toLower with
  | some (_, style) => .ok style
  | none => .error .invalidBorder

def pick {α : Type} (raw : Option Text) (default : α) (parse : Text → Except ConfigError α) :
    Except ConfigError α :=
  match raw with
  | some text => parse text
  | none => .ok default

def lineOf (text : Text) (offset : Nat) : Nat := (text.encode.take offset).count 0x0a + 1

def parseTheme (raw : RawTheme) (defaults : ThemeSpec) : Except ConfigError ThemeSpec := do
  let border ← pick raw.border defaults.border parseColor
  let accent ← pick raw.accent defaults.accent parseColor
  let «local» ← pick raw.local defaults.local parseColor
  let remote ← pick raw.remote defaults.remote parseColor
  let system ← pick raw.system defaults.system parseColor
  let warning ← pick raw.warning defaults.warning parseColor
  let dim ← pick raw.dim defaults.dim parseColor
  return { border, accent, «local», remote, system, warning, dim }

def parseKeys (raw : RawKeys) (defaults : KeyMap) : Except ConfigError KeyMap := do
  let leave ← pick raw.leave defaults.leave parseKey
  let rekey ← pick raw.rekey defaults.rekey parseKey
  let scrollUp ← pick raw.scrollUp defaults.scrollUp parseKey
  let scrollDown ← pick raw.scrollDown defaults.scrollDown parseKey
  let pageUp ← pick raw.pageUp defaults.pageUp parseKey
  let pageDown ← pick raw.pageDown defaults.pageDown parseKey
  return { leave, rekey, scrollUp, scrollDown, pageUp, pageDown }

def bindsTwice (before : List KeySpec) : List KeySpec → Bool
  | [] => false
  | spec :: rest => before.contains spec || bindsTwice (before ++ [spec]) rest

/-- `parse`, by the reader of the file format. It tells at which byte a text is
not one of the closed schema. -/
def parseConfig (toml : Text → Except (Option Nat) RawConfig) (text : Text) : Except ConfigError Config :=
  if maxConfigBytes < text.len then .error .tooLarge
  else do
    let raw ← (toml text).mapError fun span => .invalidSyntax (span.elim 1 (lineOf text))
    let theme ← parseTheme (raw.theme.getD {}) Config.default.theme
    let keys ← parseKeys (raw.keys.getD {}) Config.default.keys
    if bindsTwice [] keys.all then .error .reservedOrDuplicateKey
    else
      let border ← pick (raw.ui.getD {}).border Config.default.border parseBorder
      let tickMs := (raw.ui.getD {}).tickMs.getD Config.default.tickMs
      if minTickMs ≤ tickMs ∧ tickMs ≤ maxTickMs then .ok { theme, keys, border, tickMs }
      else .error .tickOutOfRange

structure Metadata where
  isFile : Bool
  owned : Bool
  mode : Nat
  len : Nat

/-- What the operating system answers when the configuration is opened, asked
about and read. -/
inductive Opened
  | missing
  | refused
  | file (metadata : Option Metadata) (bytes : Option (List UInt8))

def fromUtf8? (bytes : List UInt8) : Option Text :=
  if (fromUtf8Lossy bytes).encode = bytes then some (fromUtf8Lossy bytes) else none

def loadFrom (toml : Text → Except (Option Nat) RawConfig) : Opened → Except ConfigError Config
  | .missing => .ok .default
  | .refused => .error .unsafeFile
  | .file none _ => .error .unreadable
  | .file (some metadata) bytes =>
      if ¬metadata.isFile then .error .unsafeFile
      else if ¬metadata.owned ∨ metadata.mode &&& 0o022 ≠ 0 then .error .unsafeFile
      else if maxConfigBytes < metadata.len then .error .tooLarge
      else
        match bytes.map (·.take (maxConfigBytes + 1)) with
        | none => .error .unreadable
        | some bytes =>
            if maxConfigBytes < bytes.length then .error .tooLarge
            else
              match fromUtf8? bytes with
              | none => .error .notUtf8
              | some text => parseConfig toml text

/-- What `main` starts the client with: any failure yields the defaults. -/
def startConfig (toml : Text → Except (Option Nat) RawConfig) (path : Option Opened) : Config :=
  match path.map (loadFrom toml) with
  | some (.ok config) => config
  | _ => .default

/-- A binding that takes no key away that is fixed in the code. -/
structure KeySpec.Bindable (spec : KeySpec) : Prop where
  modified : ∀ c, spec.key = .letter c → spec.ctrl = true ∨ spec.alt = true
  free : spec.ctrl = true → spec.key ≠ .letter 'c' ∧ spec.key ≠ .letter 'd'
  lower : ∀ c, spec.key = .letter c → c.toLower = c

section Accepting

variable {text : Text} {spec : KeySpec} {key : KeyName}

theorem bind_ok {α β : Type} {x : Except ConfigError α} {f : α → Except ConfigError β} {b : β}
    (h : (x >>= f) = .ok b) : ∃ a, x = .ok a ∧ f a = .ok b := by
  cases x with
  | error error => cases h
  | ok a => exact ⟨a, rfl, h⟩

theorem toLower_of_isLower {c : Char} (h : c.isLower = true) : c.toLower = c := by
  change (decide (c.val ≥ 97) && decide (c.val ≤ 122)) = true at h
  rw [Bool.and_eq_true, decide_eq_true_eq, decide_eq_true_eq] at h
  have hlo : 97 ≤ c.toNat := h.1
  apply dif_neg
  rintro ⟨-, hhi⟩
  have hle : c.toNat ≤ 90 := hhi
  omega

theorem parseKeyName_lower (h : parseKeyName text = .ok key) (c : Char) (hkey : key = .letter c) : c.toLower = c := by
  rw [hkey] at h
  rw [parseKeyName.eq_def] at h
  split at h
  all_goals try cases h
  · split at h
    · split_ifs at h
      cases h
    · cases h
  · split_ifs at h with hletter
    cases h
    exact toLower_of_isLower hletter.2

theorem parseKey_bindable (h : parseKey text = .ok spec) : spec.Bindable := by
  rw [parseKey] at h
  split_ifs at h
  dsimp only at h
  generalize stripModifiers (text.map Char.toLower) false false = stripped at h
  obtain ⟨rest, ctrl, alt⟩ := stripped
  dsimp only at h
  cases hname : parseKeyName rest with
  | error error =>
      rw [hname] at h
      cases h
  | ok key =>
      rw [hname] at h
      dsimp only at h
      split_ifs at h with hbare hreserved
      cases h
      refine ⟨?_, ?_, parseKeyName_lower hname⟩
      · rintro c rfl
        rw [not_and, not_not, Bool.or_eq_true] at hbare
        exact hbare rfl
      · intro hctrl
        rw [not_and_or, not_or] at hreserved
        exact hreserved.resolve_right (not_not.2 hctrl)

theorem default_bindable : ∀ spec ∈ KeyMap.default.all, spec.Bindable := by
  have hplain (key : KeyName) (hkey : key.isLetter = false) : (KeySpec.plain key).Bindable := by
    refine ⟨?_, nofun, ?_⟩
    · rintro c rfl
      cases hkey
    · rintro c rfl
      cases hkey
  have hrekey : KeyMap.default.rekey.Bindable := by
    refine ⟨fun _ _ => .inl rfl, fun _ => ⟨by decide, by decide⟩, ?_⟩
    rintro c ⟨⟩
    rfl
  rw [KeyMap.all, List.forall_mem_cons, List.forall_mem_cons, List.forall_mem_cons, List.forall_mem_cons,
    List.forall_mem_cons, List.forall_mem_singleton]
  exact ⟨hplain _ rfl, hrekey, hplain _ rfl, hplain _ rfl, hplain _ rfl, hplain _ rfl⟩

theorem pick_ok {α : Type} {P : α → Prop} {raw : Option Text} {default a : α}
    {parse : Text → Except ConfigError α} (hdefault : P default) (hparse : ∀ text a, parse text = .ok a → P a)
    (h : pick raw default parse = .ok a) : P a := by
  cases raw with
  | none =>
      cases h
      exact hdefault
  | some text => exact hparse text a h

theorem parseKeys_bindable {raw : RawKeys} {defaults keys : KeyMap}
    (hdefaults : ∀ spec ∈ defaults.all, spec.Bindable) (h : parseKeys raw defaults = .ok keys) :
    ∀ spec ∈ keys.all, spec.Bindable := by
  have hpick {raw : Option Text} {default spec : KeySpec} (hdefault : default ∈ defaults.all)
      (h : pick raw default parseKey = .ok spec) : spec.Bindable :=
    pick_ok (hdefaults default hdefault) (fun _ _ => parseKey_bindable) h
  rw [parseKeys] at h
  obtain ⟨leave, hleave, h⟩ := bind_ok h
  obtain ⟨rekey, hrekey, h⟩ := bind_ok h
  obtain ⟨scrollUp, hscrollUp, h⟩ := bind_ok h
  obtain ⟨scrollDown, hscrollDown, h⟩ := bind_ok h
  obtain ⟨pageUp, hpageUp, h⟩ := bind_ok h
  obtain ⟨pageDown, hpageDown, h⟩ := bind_ok h
  cases h
  rw [KeyMap.all, List.forall_mem_cons, List.forall_mem_cons, List.forall_mem_cons, List.forall_mem_cons,
    List.forall_mem_cons, List.forall_mem_singleton]
  exact ⟨hpick (by simp [KeyMap.all]) hleave, hpick (by simp [KeyMap.all]) hrekey,
    hpick (by simp [KeyMap.all]) hscrollUp, hpick (by simp [KeyMap.all]) hscrollDown,
    hpick (by simp [KeyMap.all]) hpageUp, hpick (by simp [KeyMap.all]) hpageDown⟩

theorem bindsTwice_eq_false (before specs : List KeySpec) (hbefore : before.Nodup)
    (h : bindsTwice before specs = false) : (before ++ specs).Nodup := by
  induction specs generalizing before with
  | nil => rwa [List.append_nil]
  | cons spec rest ih =>
      rw [bindsTwice, Bool.or_eq_false_iff] at h
      have hfresh : spec ∉ before := by
        intro hmem
        rw [List.contains_iff_mem.2 hmem] at h
        cases h.1
      have hnodup : (before ++ [spec]).Nodup := by
        rw [← List.concat_eq_append]
        exact (List.nodup_concat before spec).2 ⟨hfresh, hbefore⟩
      have hall := ih (before ++ [spec]) hnodup h.2
      rwa [List.append_assoc, List.singleton_append] at hall

structure Config.Accepted (config : Config) : Prop where
  bindable : ∀ spec ∈ config.keys.all, spec.Bindable
  nodup : config.keys.all.Nodup
  tick : minTickMs ≤ config.tickMs ∧ config.tickMs ≤ maxTickMs

theorem default_accepted : Config.default.Accepted := ⟨default_bindable, by decide, by decide⟩

variable {toml : Text → Except (Option Nat) RawConfig} {config : Config}

theorem parseConfig_accepted (h : parseConfig toml text = .ok config) : config.Accepted := by
  rw [parseConfig] at h
  split_ifs at h
  obtain ⟨raw, -, h⟩ := bind_ok h
  obtain ⟨theme, -, h⟩ := bind_ok h
  obtain ⟨keys, hkeys, h⟩ := bind_ok h
  split_ifs at h with htwice
  obtain ⟨border, -, h⟩ := bind_ok h
  dsimp only at h
  split_ifs at h with htick
  cases h
  rw [Bool.not_eq_true] at htwice
  exact ⟨parseKeys_bindable default_bindable hkeys, bindsTwice_eq_false [] keys.all List.nodup_nil htwice, htick⟩

theorem loadFrom_accepted {file : Opened} (h : loadFrom toml file = .ok config) : config.Accepted := by
  cases file with
  | missing =>
      cases h
      exact default_accepted
  | refused => cases h
  | file metadata bytes =>
      cases metadata with
      | none => cases h
      | some metadata =>
          rw [loadFrom] at h
          split_ifs at h
          split at h
          · cases h
          · split_ifs at h
            split at h
            · cases h
            · exact parseConfig_accepted h

theorem startConfig_accepted (toml : Text → Except (Option Nat) RawConfig) (path : Option Opened) :
    (startConfig toml path).Accepted := by
  rw [startConfig]
  cases path with
  | none => exact default_accepted
  | some file =>
      rw [Option.map_some]
      cases hload : loadFrom toml file with
      | error error => exact default_accepted
      | ok config => exact loadFrom_accepted hload

end Accepting

def KeyName.code : KeyName → KeyCode
  | .esc => .esc
  | .up => .up
  | .down => .down
  | .pageUp => .pageUp
  | .pageDown => .pageDown
  | .home => .home
  | .end => .end
  | .function number => .f number
  | .letter character => .char character

theorem KeyName.code_injective {name name' : KeyName} (h : name.code = name'.code) : name = name' := by
  cases name <;> cases name' <;> cases h <;> rfl

section Matching

variable {spec spec' : KeySpec} {key : KeyEvent}

/-- A key matches by its code, or by its letter in either case. -/
theorem keyMatches_cases (h : keyMatches spec key = true) : key.control = spec.ctrl ∧ key.alt = spec.alt ∧
    (spec.key.isLetter = false ∧ key.code = spec.key.code ∨
      ∃ letter typed, spec.key = .letter letter ∧ key.code = .char typed ∧ typed.toLower = letter.toLower) := by
  rw [keyMatches.eq_def] at h
  dsimp only at h
  rw [Bool.and_eq_true, Bool.and_eq_true, decide_eq_true_eq, decide_eq_true_eq] at h
  obtain ⟨⟨hcode, hcontrol⟩, halt⟩ := h
  refine ⟨hcontrol, halt, ?_⟩
  cases hspec : spec.key with
  | letter letter =>
      cases hkey : key.code with
      | char typed =>
          rw [hspec, hkey] at hcode
          exact .inr ⟨letter, typed, rfl, rfl, of_decide_eq_true hcode⟩
      | _ =>
          rw [hspec, hkey] at hcode
          cases hcode
  | function number =>
      cases hkey : key.code with
      | f pressed =>
          rw [hspec, hkey] at hcode
          exact .inl ⟨rfl, congrArg KeyCode.f (of_decide_eq_true hcode).symm⟩
      | _ =>
          rw [hspec, hkey] at hcode
          cases hcode
  | _ =>
      cases hkey : key.code <;> rw [hspec, hkey] at hcode <;> first | exact .inl ⟨rfl, rfl⟩ | cases hcode

theorem KeySpec.Bindable.unique (h : spec.Bindable) (h' : spec'.Bindable) (hmatch : keyMatches spec key = true)
    (hmatch' : keyMatches spec' key = true) : spec = spec' := by
  obtain ⟨hcontrol, halt, hkey⟩ := keyMatches_cases hmatch
  obtain ⟨hcontrol', halt', hkey'⟩ := keyMatches_cases hmatch'
  have hname : spec.key = spec'.key := by
    rcases hkey with ⟨hletter, hcode⟩ | ⟨letter, typed, hletter, hcode, hlower⟩
    · rcases hkey' with ⟨-, hcode'⟩ | ⟨letter', typed', -, hcode', -⟩
      · exact KeyName.code_injective (hcode.symm.trans hcode')
      · have hname : spec.key = .letter typed' := KeyName.code_injective (hcode.symm.trans hcode')
        rw [hname] at hletter
        cases hletter
    · rcases hkey' with ⟨hletter', hcode'⟩ | ⟨letter', typed', hletter', hcode', hlower'⟩
      · have hname : spec'.key = .letter typed := KeyName.code_injective (hcode'.symm.trans hcode)
        rw [hname] at hletter'
        cases hletter'
      · obtain rfl := KeyCode.char.inj (hcode.symm.trans hcode')
        rw [h.lower letter hletter] at hlower
        rw [h'.lower letter' hletter'] at hlower'
        rw [hletter, hletter', ← hlower, ← hlower']
  cases spec
  cases spec'
  rw [KeySpec.mk.injEq]
  exact ⟨hname, hcontrol.symm.trans hcontrol', halt.symm.trans halt'⟩

/-- A key that types, edits, sends or quits is not bound. -/
theorem KeySpec.Bindable.spares (h : spec.Bindable) (hmatch : keyMatches spec key = true) :
    key.typed = none ∧ key.code ≠ .enter ∧ key.code ≠ .backspace ∧
      ¬(key.control = true ∧ (key.code = .char 'c' ∨ key.code = .char 'd')) := by
  obtain ⟨hcontrol, halt, ⟨hletter, hcode⟩ | ⟨letter, typed, hletter, hcode, hlower⟩⟩ := keyMatches_cases hmatch
  · have hplain : spec.key.code ≠ .enter ∧ spec.key.code ≠ .backspace ∧ ∀ c, spec.key.code ≠ .char c := by
      cases hspec : spec.key with
      | letter letter =>
          rw [hspec] at hletter
          cases hletter
      | _ => exact ⟨by rintro ⟨⟩, by rintro ⟨⟩, by rintro _ ⟨⟩⟩
    rw [KeyEvent.typed, hcode]
    refine ⟨?_, hplain.1, hplain.2.1, ?_⟩
    · split
      · next character hcharacter => exact absurd hcharacter (hplain.2.2 character)
      · rfl
    · rintro ⟨-, hc | hd⟩
      · exact hplain.2.2 'c' hc
      · exact hplain.2.2 'd' hd
  · have hmodified : (key.control || key.alt) = true := by
      rw [hcontrol, halt, Bool.or_eq_true]
      exact h.modified letter hletter
    rw [h.lower letter hletter] at hlower
    rw [KeyEvent.typed, hcode]
    refine ⟨?_, by rintro ⟨⟩, by rintro ⟨⟩, ?_⟩
    · dsimp only
      rw [hmodified, Bool.true_or, if_pos rfl]
    · rintro ⟨hpressed, hchar⟩
      obtain ⟨hc, hd⟩ := h.free (hcontrol ▸ hpressed)
      rcases hchar with hchar | hchar
      · obtain rfl := KeyCode.char.inj hchar
        exact hc (hletter.trans (congrArg _ hlower.symm))
      · obtain rfl := KeyCode.char.inj hchar
        exact hd (hletter.trans (congrArg _ hlower.symm))

end Matching

namespace App

variable {self : App} {view : ChatView}

theorem redrawChat_chat (hmode : self.mode = .chat view) (replies : Replies) :
    ∃ maxScroll, (self.redrawChat replies).2 = { self with mode := .chat { view with maxScroll } } := by
  have hself : self = { self with mode := .chat view } := by rw [← hmode]
  rw [App.redrawChat]
  split
  · next shown _ hshown _ =>
    obtain rfl := Mode.chat.inj (hmode.symm.trans hshown)
    exact ⟨_, rfl⟩
  · exact ⟨view.maxScroll, hself⟩

/-- A character that is typed into an open chat ends up in its line, and nowhere
else. -/
theorem handle_typed {key : KeyEvent} {character : Char} (hkeys : ∀ spec ∈ self.keys.all, spec.Bindable)
    (hmode : self.mode = .chat view) (hsas : self.sas = []) (htyped : key.typed = some character)
    (hroom : view.input.len + character.utf8Size ≤ maxContent) (replies : Replies) : ∃ maxScroll,
    (self.handle replies (.terminal (.press key))).2.1 =
      { self with mode := .chat { view with input := view.input ++ [character], maxScroll } } ∧
    (self.handle replies (.terminal (.press key))).2.2 = [] := by
  have hunbound {spec : KeySpec} (hspec : spec ∈ self.keys.all) : keyMatches spec key ≠ true := by
    intro hmatch
    rw [((hkeys spec hspec).spares hmatch).1] at htyped
    cases htyped
  have hcode : key.code = .char character ∧ key.control = false := by
    rw [KeyEvent.typed] at htyped
    split at htyped
    · next typed hcode =>
      split_ifs at htyped with hmodified
      rw [Bool.or_eq_true, Bool.or_eq_true, not_or, not_or, Bool.not_eq_true] at hmodified
      exact ⟨hcode.trans (congrArg _ (Option.some.inj htyped)), hmodified.1.1⟩
    · cases htyped
  have hleave : ¬(keyMatches self.keys.leave key ∨ key.control ∧ key.code = .char 'c') := by
    rintro (hmatch | ⟨hcontrol, -⟩)
    · exact hunbound (by simp [KeyMap.all]) hmatch
    · rw [hcode.2] at hcontrol
      cases hcontrol
  have hrekey : ¬keyMatches self.keys.rekey key = true := hunbound (by simp [KeyMap.all])
  have henter : key.code ≠ .enter := by
    rw [hcode.1]
    rintro ⟨⟩
  have hback : key.code ≠ .backspace := by
    rw [hcode.1]
    rintro ⟨⟩
  have hview : viewKey self.keys view key = { view with input := view.input ++ [character] } := by
    rw [viewKey, if_neg hback, htyped]
    exact if_pos hroom
  rw [handle, onTerminalEvent, hmode]
  dsimp only
  rw [chatKey, if_neg (not_not.2 hsas), if_neg hleave, if_neg henter, if_neg hrekey, hview]
  dsimp only
  have hshown : ({ self with mode := .chat { view with input := view.input ++ [character] } } : App).mode =
    .chat { view with input := view.input ++ [character] } := rfl
  obtain ⟨maxScroll, hscrolled⟩ := redrawChat_chat hshown replies
  exact ⟨maxScroll, hscrolled, rfl⟩

theorem keys_final (keys : KeyMap) (turns : List (Replies × Input)) :
    (final App.step (App.new keys) turns).keys = keys :=
  final_invariant App.step (fun app => app.keys = keys)
    (fun app turn h => (handle_does app turn.1 turn.2).keys_eq.trans h) rfl turns

end App

/-- Whatever the configuration file is and holds, the client starts with key
bindings of which no key has two, that leave typing, Enter, Backspace, Ctrl-C
and Ctrl-D alone, so that what is typed into a chat gets into its line; and
with a tick in its bounds. -/
theorem bindings_leave_typing (toml : Text → Except (Option Nat) RawConfig) (path : Option Opened) :
    let config := startConfig toml path
    (∀ spec ∈ config.keys.all, ∀ spec' ∈ config.keys.all, ∀ key,
      keyMatches spec key = true → keyMatches spec' key = true → spec = spec') ∧
    config.keys.all.Nodup ∧
    (∀ spec ∈ config.keys.all, ∀ key, keyMatches spec key = true →
      key.typed = none ∧ key.code ≠ .enter ∧ key.code ≠ .backspace ∧
      ¬(key.control = true ∧ (key.code = .char 'c' ∨ key.code = .char 'd'))) ∧
    (minTickMs ≤ config.tickMs ∧ config.tickMs ≤ maxTickMs) ∧
    ∀ (turns : List (Replies × Input)) (replies : Replies) (view : ChatView) (key : KeyEvent) (character : Char),
      let app := final App.step (App.new config.keys) turns
      app.mode = .chat view → app.sas = [] → key.typed = some character →
      view.input.len + character.utf8Size ≤ maxContent → ∃ maxScroll,
      (app.handle replies (.terminal (.press key))).2.1 =
        { app with mode := .chat { view with input := view.input ++ [character], maxScroll } } ∧
      (app.handle replies (.terminal (.press key))).2.2 = [] := by
  intro config
  have haccepted : config.Accepted := startConfig_accepted toml path
  refine ⟨?_, haccepted.nodup, ?_, haccepted.tick, ?_⟩
  · intro spec hspec spec' hspec' key
    exact (haccepted.bindable spec hspec).unique (haccepted.bindable spec' hspec')
  · intro spec hspec key
    exact (haccepted.bindable spec hspec).spares
  · intro turns replies view key character app hmode hsas htyped hroom
    apply App.handle_typed _ hmode hsas htyped hroom
    rw [App.keys_final]
    exact haccepted.bindable

open Cli.Sample in
/-- Without a configuration file, one more character is typed into an open chat. -/
theorem bindings_leave_typing_chatting : ∃ view maxScroll,
    (final App.step (App.new .default) typing).mode = .chat view ∧
      ((final App.step (App.new .default) typing).handle plain (press (.char '!')).2).2.1 =
        { final App.step (App.new .default) typing with
          mode := .chat { view with input := view.input ++ ['!'], maxScroll } } := by
  obtain ⟨hroom, hsas⟩ : ((viewOf (final App.step (App.new .default) typing).mode).any fun view =>
        view.input.len + '!'.utf8Size ≤ maxContent) = true ∧
      (final App.step (App.new .default) typing).sas.isEmpty = true := by
    decide +kernel
  obtain ⟨view, hview, hroom⟩ := (Option.any_eq_true ..).1 hroom
  have htyped : (KeyEvent.mk (.char '!') false false).typed = some '!' := rfl
  obtain ⟨-, -, -, -, hleaves⟩ := bindings_leave_typing (fun _ => .error none) none
  obtain ⟨maxScroll, hstate, -⟩ := hleaves typing plain view _ '!' (viewOf_eq_some hview)
    (List.isEmpty_iff.1 hsas) htyped (of_decide_eq_true hroom)
  exact ⟨view, maxScroll, viewOf_eq_some hview, hstate⟩

end Ruxmsg.Cli
