import Ruxmsg.Cli.Clean

namespace Ruxmsg.Cli

open Library.Machine

def Text.encode (text : Text) : List UInt8 := text.flatMap String.utf8EncodeChar

section Decoding

variable {b : UInt8} {bytes : List UInt8} {missing bits lower upper : Nat}

theorem toNat_byte {n : Nat} (h : n < 256) : (UInt8.ofNat n).toNat = n := by
  rw [UInt8.toNat_ofNat']
  exact Nat.mod_eq_of_lt h

/-- A byte that a decoder in the middle of a character waits for. -/
theorem utf8Lossy_within (hlo : lower ≤ b.toNat) (hhi : b.toNat ≤ upper) :
    utf8Lossy (b :: bytes) (.within (missing + 2) bits lower upper) =
      utf8Lossy bytes (.within (missing + 1) (bits * 0x40 + b.toNat % 0x40) 0x80 0xbf) := by
  rw [utf8Lossy, utf8Step, if_pos ⟨hlo, hhi⟩, if_neg (by omega)]
  rfl

theorem utf8Lossy_last (hlo : lower ≤ b.toNat) (hhi : b.toNat ≤ upper) :
    utf8Lossy (b :: bytes) (.within 1 bits lower upper) =
      Char.ofNat (bits * 0x40 + b.toNat % 0x40) :: utf8Lossy bytes .boundary := by
  rw [utf8Lossy, utf8Step, if_pos ⟨hlo, hhi⟩, if_pos rfl]
  rfl

theorem utf8Lossy_ascii (h : b.toNat < 0x80) :
    utf8Lossy (b :: bytes) .boundary = Char.ofNat b.toNat :: utf8Lossy bytes .boundary := by
  rw [utf8Lossy, utf8Step, utf8Start, if_pos h]
  rfl

theorem utf8Lossy_lead {n : Nat} (hb : 0x80 ≤ b.toNat) (h : utf8Lead b.toNat = some (n, lower, upper))
    (hn : n = 2 ∧ bits = b.toNat % 0x20 ∨ n = 3 ∧ bits = b.toNat % 0x10 ∨ n = 4 ∧ bits = b.toNat % 0x08) :
    utf8Lossy (b :: bytes) .boundary = utf8Lossy bytes (.within (n - 1) bits lower upper) := by
  rw [utf8Lossy, utf8Step, utf8Start, if_neg (by omega), h]
  obtain ⟨rfl, rfl⟩ | ⟨rfl, rfl⟩ | ⟨rfl, rfl⟩ := hn
  · rfl
  · rfl
  · rfl

end Decoding

section Leads

variable {n : Nat}

theorem utf8Lead_two (hlo : 2 ≤ n) (hhi : n < 0x20) : utf8Lead (n + 0xc0) = some (2, 0x80, 0xbf) := by
  rw [utf8Lead, if_pos (by omega)]

/-- The leading byte of three, by the bits it carries. The range of the next byte
leaves out overlong forms and surrogates. -/
theorem utf8Lead_three (hhi : n < 0x10) :
    utf8Lead (n + 0xe0) = some (3, if n = 0 then 0xa0 else 0x80, if n = 0xd then 0x9f else 0xbf) := by
  rw [utf8Lead, if_neg (by omega)]
  by_cases h0 : n = 0
  · rw [h0]
    rfl
  · rw [if_neg (by omega), if_neg h0]
    by_cases hd : n = 0xd
    · rw [hd]
      rfl
    · rw [if_neg (by omega), if_pos (by omega), if_neg hd]

theorem utf8Lead_four (hhi : n < 5) :
    utf8Lead (n + 0xf0) = some (4, if n = 0 then 0x90 else 0x80, if n = 4 then 0x8f else 0xbf) := by
  revert n
  decide

end Leads

section Encoding

variable {v : Nat} (bytes : List UInt8)

theorem utf8Lossy_two (hlo : 0x80 ≤ v) (hhi : v ≤ 0x7ff) :
    utf8Lossy (UInt8.ofNat (v / 64 % 0x20 + 0xc0) :: UInt8.ofNat (v % 0x40 + 0x80) :: bytes) .boundary =
      Char.ofNat v :: utf8Lossy bytes .boundary := by
  have hfirst : (UInt8.ofNat (v / 64 % 0x20 + 0xc0)).toNat = v / 64 + 0xc0 := by
    rw [toNat_byte (by omega)]
    omega
  have hlast : (UInt8.ofNat (v % 0x40 + 0x80)).toNat = v % 0x40 + 0x80 := toNat_byte (by omega)
  rw [utf8Lossy_lead (by omega) (by rw [hfirst]; exact utf8Lead_two (by omega) (by omega)) (.inl ⟨rfl, rfl⟩)]
  rw [utf8Lossy_last (by omega) (by omega), hfirst, hlast]
  congr 2
  omega

theorem utf8Lossy_three (hlo : 0x800 ≤ v) (hhi : v ≤ 0xffff) (hvalid : v < 0xd800 ∨ 0xdfff < v) :
    utf8Lossy (UInt8.ofNat (v / 4096 % 0x10 + 0xe0) :: UInt8.ofNat (v / 64 % 0x40 + 0x80) ::
      UInt8.ofNat (v % 0x40 + 0x80) :: bytes) .boundary = Char.ofNat v :: utf8Lossy bytes .boundary := by
  have hfirst : (UInt8.ofNat (v / 4096 % 0x10 + 0xe0)).toNat = v / 4096 + 0xe0 := by
    rw [toNat_byte (by omega)]
    omega
  have hsecond : (UInt8.ofNat (v / 64 % 0x40 + 0x80)).toNat = v / 64 % 0x40 + 0x80 := toNat_byte (by omega)
  have hlast : (UInt8.ofNat (v % 0x40 + 0x80)).toNat = v % 0x40 + 0x80 := toNat_byte (by omega)
  rw [utf8Lossy_lead (by omega) (by rw [hfirst]; exact utf8Lead_three (by omega)) (.inr (.inl ⟨rfl, rfl⟩))]
  rw [utf8Lossy_within (by split_ifs <;> omega) (by split_ifs <;> omega)]
  rw [utf8Lossy_last (by omega) (by omega), hfirst, hsecond, hlast]
  congr 2
  omega

theorem utf8Lossy_four (hlo : 0x10000 ≤ v) (hhi : v < 0x110000) :
    utf8Lossy (UInt8.ofNat (v / 262144 % 0x08 + 0xf0) :: UInt8.ofNat (v / 4096 % 0x40 + 0x80) ::
      UInt8.ofNat (v / 64 % 0x40 + 0x80) :: UInt8.ofNat (v % 0x40 + 0x80) :: bytes) .boundary =
      Char.ofNat v :: utf8Lossy bytes .boundary := by
  have hfirst : (UInt8.ofNat (v / 262144 % 0x08 + 0xf0)).toNat = v / 262144 + 0xf0 := by
    rw [toNat_byte (by omega)]
    omega
  have hsecond : (UInt8.ofNat (v / 4096 % 0x40 + 0x80)).toNat = v / 4096 % 0x40 + 0x80 := toNat_byte (by omega)
  have hthird : (UInt8.ofNat (v / 64 % 0x40 + 0x80)).toNat = v / 64 % 0x40 + 0x80 := toNat_byte (by omega)
  have hlast : (UInt8.ofNat (v % 0x40 + 0x80)).toNat = v % 0x40 + 0x80 := toNat_byte (by omega)
  rw [utf8Lossy_lead (by omega) (by rw [hfirst]; exact utf8Lead_four (by omega)) (.inr (.inr ⟨rfl, rfl⟩))]
  rw [utf8Lossy_within (by split_ifs <;> omega) (by split_ifs <;> omega)]
  rw [utf8Lossy_within (by omega) (by omega)]
  rw [utf8Lossy_last (by omega) (by omega), hfirst, hsecond, hthird, hlast]
  congr 2
  omega

end Encoding

theorem utf8Lossy_encodeChar (c : Char) (bytes : List UInt8) :
    utf8Lossy (String.utf8EncodeChar c ++ bytes) .boundary = c :: utf8Lossy bytes .boundary := by
  obtain ⟨v, hv⟩ : ∃ v, c.val.toNat = v := ⟨_, rfl⟩
  have hc : Char.ofNat v = c := by
    rw [← hv]
    exact Char.ofNat_toNat c
  have hvalid : v < 0xd800 ∨ 0xdfff < v ∧ v < 0x110000 := by
    rw [← hv]
    exact c.valid
  rw [String.utf8EncodeChar, hv]
  split_ifs
  · have hbyte : (UInt8.ofNat v).toNat = v := toNat_byte (by omega)
    rw [List.singleton_append, utf8Lossy_ascii (by omega), hbyte, hc]
  · rw [← hc]
    exact utf8Lossy_two bytes (by omega) (by omega)
  · rw [← hc]
    exact utf8Lossy_three bytes (by omega) (by omega) (by omega)
  · rw [← hc]
    exact utf8Lossy_four bytes (by omega) (by omega)

/-- No text is lost on its way through UTF-8. -/
theorem fromUtf8Lossy_encode (text : Text) : fromUtf8Lossy text.encode = text := by
  induction text with
  | nil => rfl
  | cons c text ih =>
      rw [fromUtf8Lossy, Text.encode, List.flatMap_cons, utf8Lossy_encodeChar]
      exact congrArg _ ih

section Showing

variable {text : Text}

theorem sanitizeForDisplay_of_safe (h : ∀ c ∈ text, isUnsafe c = false) : sanitizeForDisplay text = text := by
  induction text with
  | nil => rfl
  | cons c text ih =>
      rw [sanitizeForDisplay, List.flatMap_cons, h c List.mem_cons_self, if_neg Bool.false_ne_true]
      exact congrArg _ (ih fun d hd => h d (List.mem_cons_of_mem _ hd))

theorem tab_not_mem (h : '\t' ∉ text) : '\t' ∉ sanitizeForDisplay text := by
  intro hmem
  obtain ⟨c, hc, hmem⟩ := List.mem_flatMap.1 hmem
  split_ifs at hmem
  · rw [List.mem_append, List.mem_append, hex, List.leftpad, List.mem_append, List.mem_singleton] at hmem
    rcases hmem with (hmem | hmem | hmem) | hmem
    · revert hmem
      decide
    · exact absurd (List.eq_of_mem_replicate hmem) (by decide)
    · exact (isUnsafe_toDigits _ _ hmem).2 rfl
    · exact absurd hmem (by decide)
  · rw [List.mem_singleton] at hmem
    exact h (hmem ▸ hc)

theorem ingest_encode (h : '\t' ∉ text) : ingest text.encode = sanitizeForDisplay text := by
  have htab := tab_not_mem h
  rw [ingest, fromUtf8Lossy_encode]
  generalize sanitizeForDisplay text = shown at htab
  induction shown with
  | nil => rfl
  | cons c shown ih =>
      rw [List.mem_cons, not_or] at htab
      rw [List.flatMap_cons, if_neg (Ne.symm htab.1), ih htab.2]
      rfl

end Showing

namespace Text

theorem len_le_of_sublist {p q : Text} (h : p.Sublist q) : len p ≤ len q := by
  induction h with
  | slnil => rfl
  | cons c _ ih =>
      rw [len_cons]
      exact ih.trans (Nat.le_add_left ..)
  | cons_cons c _ ih =>
      rw [len_cons, len_cons]
      exact Nat.add_le_add_left ih _

theorem trim_sublist (text : Text) : text.trim.Sublist text :=
  (List.rdropWhile_prefix isWhitespace _).sublist.trans (List.dropWhile_sublist isWhitespace)

theorem Typed.trim {limit : Nat} {text : Text} (h : text.Typed limit) : text.trim.Typed limit :=
  ⟨(len_le_of_sublist text.trim_sublist).trans h.1, fun c hc => h.2 c (text.trim_sublist.subset hc)⟩

theorem Typed.tab_not_mem {limit : Nat} {text : Text} (h : text.Typed limit) : '\t' ∉ text :=
  fun htab => absurd (h.2 _ htab) (by decide)

end Text

theorem keyMatches_enter (spec : KeySpec) {key : KeyEvent} (hkey : key.code = .enter) :
    keyMatches spec key = false := by
  rw [keyMatches, hkey]
  cases spec.key <;> rfl

namespace App

variable {self : App} {replies : Replies} {label text : Text} {peer : Peer}

theorem peers_redrawChat (replies : Replies) : (self.redrawChat replies).2.peers = self.peers := by
  rw [App.redrawChat]
  split <;> rfl

theorem connectedPeer_eq (hpeer : self.peers.lookup label = some peer) (hstatus : peer.status = .connected) :
    self.connectedPeer label = .ok peer := by
  rw [connectedPeer, App.peer, hpeer]
  change ite .. = _
  rw [if_neg (not_not.2 hstatus)]
  rfl

/-- A text that fits goes out as it is and is shown in the scrollback. -/
theorem sendText_accepted (hpeer : self.peers.lookup label = some peer) (hstatus : peer.status = .connected)
    (hreply : replies.handle = .ok ()) (hlen : text.len ≤ maxContent) :
    self.sendText replies label text =
      (.ok (), { self.modify label (·.speaks text.encode) with touched := true },
        [.sendMessage peer.handle.id text.encode]) := by
  rw [sendText, if_neg (Nat.not_lt.2 hlen), connectedPeer_eq hpeer hstatus]
  dsimp only
  rw [hreply]
  rfl

theorem chatEnter_accepted {view : ChatView} (hpeer : self.peers.lookup view.label = some peer)
    (hstatus : peer.status = .connected) (hreply : replies.handle = .ok ()) (htext : view.input.trim ≠ [])
    (hlen : view.input.trim.len ≤ maxContent) :
    (self.chatEnter replies view).2 = [.sendMessage peer.handle.id view.input.trim.encode] ∧
      (self.chatEnter replies view).1.peers.lookup view.label = some (peer.speaks view.input.trim.encode) := by
  have hsent : sendText { self with mode := .chat { view with input := [], scroll := 0 } } replies view.label
      view.input.trim = _ := sendText_accepted hpeer hstatus hreply hlen
  rw [chatEnter, if_neg htext, hsent]
  refine ⟨rfl, ?_⟩
  change (modify _ view.label _).peers.lookup view.label = _
  rw [lookup_modify, if_pos rfl]
  change Option.map _ (self.peers.lookup view.label) = _
  rw [hpeer]
  rfl

/-- Enter in an open chat gives the line to the connection and to the scrollback. -/
theorem handle_enter {view : ChatView} {key : KeyEvent} (hmode : self.mode = .chat view) (hsas : self.sas = [])
    (hkey : key.code = .enter) (hpeer : self.peers.lookup view.label = some peer)
    (hstatus : peer.status = .connected) (hreply : replies.handle = .ok ()) (htext : view.input.trim ≠ [])
    (hlen : view.input.trim.len ≤ maxContent) :
    (self.handle replies (.terminal (.press key))).2.2 = [.sendMessage peer.handle.id view.input.trim.encode] ∧
      (self.handle replies (.terminal (.press key))).2.1.peers.lookup view.label =
        some (peer.speaks view.input.trim.encode) := by
  have hleave : ¬(keyMatches self.keys.leave key ∨ key.control ∧ key.code = .char 'c') := by
    rw [keyMatches_enter _ hkey, hkey]
    rintro (h | ⟨-, h⟩) <;> cases h
  obtain ⟨hcalls, hlookup⟩ := chatEnter_accepted hpeer hstatus hreply htext hlen
  rw [handle, onTerminalEvent, hmode]
  dsimp only
  rw [chatKey, if_neg (not_not.2 hsas), if_neg hleave, if_pos hkey]
  refine ⟨hcalls, ?_⟩
  change (App.redrawChat _ replies).2.peers.lookup view.label = _
  rw [peers_redrawChat]
  exact hlookup

theorem handle_message {id : ConnId} (hid : self.byId.lookup id = some label)
    (hpeer : self.peers.lookup label = some peer) (content : List UInt8) :
    (self.handle replies (.net (.conn id (.message content)))).2.1.peers.lookup label =
      some (peer.hears (self.views label) content) := by
  have hheard : (self.onMessage label content).peers.lookup label = some (peer.hears (self.views label) content) := by
    have hmodified : (modify { self with touched := true } label (·.hears (self.views label) content)).peers.lookup
        label = some (peer.hears (self.views label) content) := by
      rw [lookup_modify, if_pos rfl]
      change Option.map _ (self.peers.lookup label) = _
      rw [hpeer]
      rfl
    rw [onMessage]
    split
    · split
      · exact hmodified
      · exact hmodified
    · exact hmodified
  rw [handle, onNetEvent]
  dsimp only
  change (App.redrawChat _ replies).2.peers.lookup label = _
  rw [peers_redrawChat, onConnEvent, hid]
  exact hheard

end App

/-- What the user sends from an open chat, in any run, is the line as it was
typed: it decodes to that line at whoever receives it, and both clients show it
alike, with nothing changed but the characters that could steer a terminal. -/
theorem typed_lines_shown_alike (keys : KeyMap) (turns : List (Replies × Input)) (replies : Replies)
    {view : ChatView} {peer : Peer} {key : KeyEvent} (hkey : key.code = .enter) (hreply : replies.handle = .ok ())
    (hmode : (final App.step (App.new keys) turns).mode = .chat view)
    (hsas : (final App.step (App.new keys) turns).sas = [])
    (hpeer : (final App.step (App.new keys) turns).peers.lookup view.label = some peer)
    (hstatus : peer.status = .connected) (htext : view.input.trim ≠ []) :
    ∃ content, let shown := sanitizeForDisplay view.input.trim
      let turn := (final App.step (App.new keys) turns).handle replies (.terminal (.press key))
      content = view.input.trim.encode ∧ turn.2.2 = [.sendMessage peer.handle.id content] ∧
      fromUtf8Lossy content = view.input.trim ∧
      turn.2.1.peers.lookup view.label = some { peer with scrollback := peer.scrollback.push .local shown } ∧
      (∀ (far : App) answers id label sender, far.byId.lookup id = some label →
        far.peers.lookup label = some sender →
        ∃ unread, (far.handle answers (.net (.conn id (.message content)))).2.1.peers.lookup label =
          some { sender with unread, scrollback := sender.scrollback.push .remote shown }) ∧
      ((∀ c ∈ view.input.trim, isUnsafe c = false) → shown = view.input.trim) := by
  have htyped : view.input.trim.Typed maxContent :=
    ((App.reachable_shown keys turns).clean.view view hmode).2.trim
  have hshown : ingest view.input.trim.encode = sanitizeForDisplay view.input.trim :=
    ingest_encode htyped.tab_not_mem
  obtain ⟨hcalls, hlookup⟩ := App.handle_enter hmode hsas hkey hpeer hstatus hreply htext htyped.1
  refine ⟨view.input.trim.encode, rfl, hcalls, fromUtf8Lossy_encode _, ?_, ?_, sanitizeForDisplay_of_safe⟩
  · rw [← hshown]
    exact hlookup
  · intro far answers id label sender hid hsender
    rw [← hshown]
    exact ⟨_, App.handle_message hid hsender _⟩

namespace Sample

def typing : List (Replies × Input) :=
  asking ++ press .enter :: receive (.conn ⟨1⟩ (.established (Bytes.replicate 32 7))) ::
    (type "chat peer1" ++ press .enter :: type "hello ")

def viewOf : Mode → Option ChatView
  | .chat view => some view
  | .repl => none

theorem viewOf_eq_some {mode : Mode} {view : ChatView} (h : viewOf mode = some view) : mode = .chat view := by
  cases mode with
  | chat =>
      obtain rfl := Option.some.inj h
      rfl
  | repl => cases h

end Sample

open Cli.Sample in
/-- The line is sent when Enter is pressed. -/
theorem typed_lines_shown_alike_chatting : ∃ id,
    ((final App.step (App.new .default) typing).handle plain (press .enter).2).2.2 =
      [.sendMessage id (Text.encode "hello".toList)] := by
  obtain ⟨hline, hsas, hconnected⟩ :
      ((viewOf (final App.step (App.new .default) typing).mode).any fun view =>
        view.label = "peer1".toList ∧ view.input.trim = "hello".toList) = true ∧
      (final App.step (App.new .default) typing).sas.isEmpty = true ∧
      ((final App.step (App.new .default) typing).peers.lookup "peer1".toList).any
        (fun peer => peer.status = .connected) = true := by
    decide +kernel
  obtain ⟨view, hview, hline⟩ := (Option.any_eq_true ..).1 hline
  obtain ⟨hlabel, htext⟩ := of_decide_eq_true hline
  obtain ⟨peer, hpeer, hstatus⟩ := (Option.any_eq_true ..).1 hconnected
  rw [← hlabel] at hpeer
  have henter : (KeyEvent.mk .enter false false).code = .enter := rfl
  obtain ⟨content, hcontent, hcalls, -⟩ := typed_lines_shown_alike .default typing plain henter rfl
    (viewOf_eq_some hview) (List.isEmpty_iff.1 hsas) hpeer (of_decide_eq_true hstatus) (by rw [htext]; decide)
  rw [hcontent, htext] at hcalls
  exact ⟨peer.handle.id, hcalls⟩

end Ruxmsg.Cli
