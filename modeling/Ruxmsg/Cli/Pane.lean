import Ruxmsg.Cli.Clean

namespace Ruxmsg.Cli

open Library.Machine

section Wrapping

variable (columns : Char → Nat) (width : Nat)

/-- The rows of one line. What has been put in the row so far takes `used` columns. -/
def wrapLine (row : Text) (used : Nat) : Text → List Text
  | [] => [row]
  | character :: line =>
      if width < used + columns character ∧ row ≠ [] then
        row :: wrapLine [character] (columns character) line
      else wrapLine (row ++ [character]) (used + columns character) line

/-- The rows of a text, by the columns each character takes. -/
def wrap (text : Text) : List Text := (text.splitOn '\n').flatMap (wrapLine columns (max width 1) [] 0)

end Wrapping

structure PaneRow where
  gutter : Text
  text : Text

def gutter : Text := "      ".toList

def tag : Author → Text
  | .local => "you   ".toList
  | .remote => "peer  ".toList
  | .system => "*     ".toList

/-- The rows of an entry: the first has its tag, the others are indented. -/
def entryRows (columns : Char → Nat) (width : Nat) (entry : Entry) : List PaneRow :=
  match wrap columns width entry.text with
  | [] => []
  | first :: rest => ⟨tag entry.author, first⟩ :: rest.map (PaneRow.mk gutter)

/-- What `draw_messages` shows in an area of `height` rows and `width` columns
inside its border, and how far it can be scrolled. -/
structure Pane where
  rows : List PaneRow
  maxScroll : Nat

def drawMessages (columns : Char → Nat) (width height scroll : Nat) (entries : List Entry) : Pane :=
  let rows := entries.flatMap (entryRows columns (width - gutter.len))
  let maxScroll := rows.length - height
  let «end» := rows.length - min scroll maxScroll
  { rows := (rows.take «end»).drop («end» - height)
    maxScroll }

/-- The end of a line, from its last character backwards, as far as it fits;
with the columns it takes. -/
def tailFrom (columns : Char → Nat) (capacity : Nat) (shown : Text) (used : Nat) : Text → Text × Nat
  | [] => (shown, used)
  | character :: before =>
      if capacity < used + columns character then (shown, used)
      else tailFrom columns capacity (character :: shown) (used + columns character) before

/-- The part of the input that `draw_input` shows, and where it puts the cursor. -/
def drawInput (columns : Char → Nat) (width : Nat) (input : Text) : Text × Nat :=
  tailFrom columns (width - 1) [] 0 input.reverse

theorem tailFrom_fits (columns : Char → Nat) (capacity : Nat) (shown before : Text)
    (hfits : (shown.map columns).sum ≤ capacity) :
    ∃ hidden tail : Text,
      tailFrom columns capacity shown (shown.map columns).sum before = (tail, (tail.map columns).sum) ∧
      (tail.map columns).sum ≤ capacity ∧ hidden.reverse ++ tail = before.reverse ++ shown ∧
      ∀ c ∈ hidden.head?, capacity < (tail.map columns).sum + columns c := by
  induction before generalizing shown with
  | nil => exact ⟨[], shown, rfl, hfits, rfl, nofun⟩
  | cons character before ih =>
      rw [tailFrom]
      split_ifs with hfull
      · refine ⟨character :: before, shown, rfl, hfits, rfl, ?_⟩
        rintro _ ⟨⟩
        exact hfull
      · have hpushed : ((character :: shown).map columns).sum = (shown.map columns).sum + columns character := by
          rw [List.map_cons, List.sum_cons, Nat.add_comm]
        rw [← hpushed]
        obtain ⟨hidden, tail, htail, hle, hsplit, hnext⟩ := ih (character :: shown) (hpushed ▸ not_lt.1 hfull)
        refine ⟨hidden, tail, htail, hle, hsplit.trans ?_, hnext⟩
        rw [List.reverse_cons, List.append_assoc, List.singleton_append]

/-- The longest end of the input that leaves a column for the cursor. -/
theorem drawInput_fits (columns : Char → Nat) (width : Nat) (input : Text) : ∃ hidden tail : Text,
    drawInput columns width input = (tail, (tail.map columns).sum) ∧ (tail.map columns).sum ≤ width - 1 ∧
      hidden.reverse ++ tail = input ∧ ∀ c ∈ hidden.head?, width - 1 < (tail.map columns).sum + columns c := by
  obtain ⟨hidden, tail, htail, hle, hsplit, hnext⟩ := tailFrom_fits columns (width - 1) [] input.reverse (Nat.zero_le _)
  rw [List.reverse_reverse, List.append_nil] at hsplit
  exact ⟨hidden, tail, htail, hle, hsplit, hnext⟩

section Rows

variable {columns : Char → Nat} {width : Nat}

/-- A row fits, or it is one character that fits no row. -/
def Fitting (columns : Char → Nat) (width : Nat) (row : Text) : Prop :=
  (row.map columns).sum ≤ width ∨ row.length ≤ 1

theorem wrapLine_flatten (row : Text) (used : Nat) (line : Text) :
    (wrapLine columns width row used line).flatten = row ++ line := by
  induction line generalizing row used with
  | nil => rw [wrapLine, List.flatten_singleton, List.append_nil]
  | cons character line ih =>
      rw [wrapLine]
      split_ifs
      · rw [List.flatten_cons, ih, List.singleton_append]
      · rw [ih, List.append_assoc, List.singleton_append]

theorem wrapLine_fitting (row : Text) (line : Text) (hrow : Fitting columns width row) :
    ∀ shown ∈ wrapLine columns width row (row.map columns).sum line, Fitting columns width shown := by
  induction line generalizing row with
  | nil =>
      intro shown hshown
      rw [wrapLine, List.mem_singleton] at hshown
      rw [hshown]
      exact hrow
  | cons character line ih =>
      have hsingle : ([character].map columns).sum = columns character := List.sum_singleton
      have hpushed : ((row ++ [character]).map columns).sum = (row.map columns).sum + columns character := by
        rw [List.map_append, List.sum_append, hsingle]
      rw [wrapLine]
      split_ifs with hbreak
      · rw [List.forall_mem_cons, ← hsingle]
        exact ⟨hrow, ih [character] (.inr le_rfl)⟩
      · rw [← hpushed]
        apply ih
        rw [not_and_or, not_lt, not_not] at hbreak
        rcases hbreak with hle | rfl
        · exact .inl (hpushed.trans_le hle)
        · exact .inr le_rfl

theorem wrapLine_ne_nil (row : Text) (used : Nat) (line : Text) : wrapLine columns width row used line ≠ [] := by
  induction line generalizing row used with
  | nil => exact List.cons_ne_nil _ _
  | cons character line ih =>
      rw [wrapLine]
      split_ifs
      · exact List.cons_ne_nil _ _
      · exact ih _ _

theorem wrapLine_cons (columns : Char → Nat) (width : Nat) (row : Text) (used : Nat) (line : Text) :
    ∃ more rest, wrapLine columns width row used line = (row ++ more) :: rest := by
  induction line generalizing row used with
  | nil => exact ⟨[], [], by rw [wrapLine, List.append_nil]⟩
  | cons character line ih =>
      rw [wrapLine]
      split_ifs
      · exact ⟨[], _, by rw [List.append_nil]⟩
      · obtain ⟨more, rest, heq⟩ := ih (row ++ [character]) (used + columns character)
        exact ⟨character :: more, rest, by rw [heq, List.append_assoc, List.singleton_append]⟩

/-- A row ends where the next character would not fit. -/
theorem wrapLine_full (row line : Text) :
    (wrapLine columns width row (row.map columns).sum line).IsChain fun shown next =>
      ∃ c ∈ next.head?, width < (shown.map columns).sum + columns c := by
  induction line generalizing row with
  | nil =>
      rw [wrapLine]
      exact .singleton row
  | cons character line ih =>
      rw [wrapLine]
      split_ifs with hbreak
      · have hnext := ih [character]
        rw [List.map_singleton, List.sum_singleton] at hnext
        obtain ⟨more, rest, heq⟩ := wrapLine_cons columns width [character] (columns character) line
        rw [heq] at hnext ⊢
        exact hnext.cons_cons ⟨character, rfl, hbreak.1⟩
      · have hnext := ih (row ++ [character])
        rw [List.map_append, List.sum_append, List.map_singleton, List.sum_singleton] at hnext
        exact hnext

theorem wrap_fitting (text : Text) : ∀ row ∈ wrap columns width text, Fitting columns (max width 1) row := by
  intro row hrow
  obtain ⟨line, -, hrow⟩ := List.mem_flatMap.1 hrow
  exact wrapLine_fitting [] line (.inr (Nat.zero_le 1)) row hrow

example : wrap (fun _ => 2) 1 ['日', '本'] = [['日'], ['本']] := by decide

theorem wrap_lines (columns : Char → Nat) (width : Nat) (text : Text) : ∃ lines : List (List Text),
    wrap columns width text = lines.flatten ∧
    (∀ line ∈ lines, line ≠ [] ∧ line.IsChain fun shown next =>
      ∃ c ∈ next.head?, max width 1 < (shown.map columns).sum + columns c) ∧
    ['\n'].intercalate (lines.map List.flatten) = text := by
  refine ⟨(text.splitOn '\n').map (wrapLine columns (max width 1) [] 0), ?_, ?_, ?_⟩
  · rw [wrap, List.flatMap_def]
  · intro rows hrows
    obtain ⟨line, -, rfl⟩ := List.mem_map.1 hrows
    exact ⟨wrapLine_ne_nil [] 0 line, wrapLine_full [] line⟩
  · have hlines : (text.splitOn '\n').map (List.flatten ∘ wrapLine columns (max width 1) [] 0) = text.splitOn '\n' := by
      refine (List.map_congr_left fun line _ => wrapLine_flatten [] 0 line).trans ?_
      exact List.map_id _
    rw [List.map_map, hlines]
    exact List.intercalate_splitOn '\n'

theorem entryRows_text (entry : Entry) : (entryRows columns width entry).map PaneRow.text =
    wrap columns width entry.text := by
  rw [entryRows]
  cases wrap columns width entry.text with
  | nil => rfl
  | cons first rest =>
      rw [List.map_cons, List.map_map]
      exact congrArg _ (List.map_id rest)

theorem wrap_ne_nil (columns : Char → Nat) (width : Nat) (text : Text) : wrap columns width text ≠ [] := by
  obtain ⟨first, rest, heq⟩ := List.exists_cons_of_ne_nil (List.splitOn_ne_nil '\n' text)
  rw [wrap, heq, List.flatMap_cons]
  exact List.append_ne_nil_of_left_ne_nil (wrapLine_ne_nil [] 0 first) _

/-- The first row of an entry is the only one with its tag. -/
theorem entryRows_gutter (entry : Entry) : ∃ more,
    (entryRows columns width entry).map PaneRow.gutter = tag entry.author :: List.replicate more gutter := by
  obtain ⟨first, rest, heq⟩ := List.exists_cons_of_ne_nil (wrap_ne_nil columns width entry.text)
  refine ⟨rest.length, ?_⟩
  rw [entryRows, heq, List.map_cons, List.map_map]
  exact congrArg _ List.map_const

theorem mem_entryRows {entry : Entry} {row : PaneRow} (h : row ∈ entryRows columns width entry) :
    row.text ∈ wrap columns width entry.text := by
  rw [← entryRows_text]
  exact List.mem_map_of_mem h

theorem mem_splitOn_newline (text : Text) : ∀ line ∈ text.splitOn '\n', ∀ c ∈ line, c ∈ text ∧ c ≠ '\n' := by
  induction text with
  | nil =>
      intro line hline
      rw [List.splitOn_nil, List.mem_singleton] at hline
      rw [hline]
      exact fun c hc => absurd hc List.not_mem_nil
  | cons character text ih =>
      have hkept : ∀ line ∈ text.splitOn '\n', ∀ c ∈ line, c ∈ character :: text ∧ c ≠ '\n' :=
        fun line hline c hc => (ih line hline c hc).imp_left (List.mem_cons_of_mem character)
      rw [List.splitOn_cons_eq_if_modifyHead]
      split_ifs with hbreak
      · rw [List.forall_mem_cons]
        exact ⟨fun c hc => absurd hc List.not_mem_nil, hkept⟩
      · obtain ⟨first, rest, heq⟩ := List.exists_cons_of_ne_nil (List.splitOn_ne_nil '\n' text)
        rw [heq, List.forall_mem_cons] at hkept
        rw [heq, List.modifyHead_cons, List.forall_mem_cons, List.forall_mem_cons]
        rw [beq_iff_eq] at hbreak
        exact ⟨⟨⟨List.mem_cons_self, hbreak⟩, hkept.1⟩, hkept.2⟩

/-- The rows hold no character that their text does not hold, and no newline. -/
theorem mem_of_mem_wrap {text row : Text} (h : row ∈ wrap columns width text) : ∀ c ∈ row, c ∈ text ∧ c ≠ '\n' := by
  obtain ⟨line, hline, hrow⟩ := List.mem_flatMap.1 h
  intro c hc
  have hmem : c ∈ (wrapLine columns (max width 1) [] 0 line).flatten := List.mem_flatten_of_mem hrow hc
  rw [wrapLine_flatten] at hmem
  exact mem_splitOn_newline text line hline c hmem

theorem drawMessages_rows (height scroll : Nat) (entries : List Entry) :
    (drawMessages columns width height scroll entries).rows =
      ((entries.flatMap (entryRows columns (width - gutter.len))).drop
        ((drawMessages columns width height scroll entries).maxScroll -
          min scroll (drawMessages columns width height scroll entries).maxScroll)).take height := by
  rw [drawMessages]
  generalize entries.flatMap (entryRows columns (width - gutter.len)) = rows
  dsimp only
  rw [List.drop_take]
  by_cases hle : rows.length ≤ height
  · have hnone : rows.length - height = 0 := Nat.sub_eq_zero_of_le hle
    rw [hnone, Nat.min_zero, Nat.sub_zero, hnone, Nat.sub_zero, List.drop_zero, List.take_of_length_le le_rfl,
      List.take_of_length_le hle]
  · have hstart : rows.length - min scroll (rows.length - height) - height =
        rows.length - height - min scroll (rows.length - height) := by omega
    have hheight : rows.length - min scroll (rows.length - height) -
        (rows.length - height - min scroll (rows.length - height)) = height := by omega
    rw [hstart, hheight]

end Rows

/-- What the message pane of a chat draws, in any run of the client and at any
size of the terminal: every entry is all there, cut at its newlines and where
the next character would not fit, with its tag on its first row; no row holds a
character that could steer the terminal or break the row; and scrolling moves a
window of the pane's height over all the rows. -/
theorem pane_draws_history (columns : Char → Nat) (width height scroll : Nat) (keys : KeyMap)
    (turns : List (Replies × Input)) {label : Text} {peer : Peer}
    (hpeer : (final App.step (App.new keys) turns).peers.lookup label = some peer) :
    let entries := peer.scrollback.scrollback.entries
    let rows := entries.flatMap (entryRows columns (width - gutter.len))
    let pane := drawMessages columns width height scroll entries
    (∀ entry ∈ entries, (∃ lines : List (List Text),
        (entryRows columns (width - gutter.len) entry).map PaneRow.text = lines.flatten ∧
        (∀ line ∈ lines, line ≠ [] ∧ line.IsChain fun shown next =>
          ∃ c ∈ next.head?, max (width - gutter.len) 1 < (shown.map columns).sum + columns c) ∧
        ['\n'].intercalate (lines.map List.flatten) = entry.text) ∧
      ∃ more, (entryRows columns (width - gutter.len) entry).map PaneRow.gutter =
        tag entry.author :: List.replicate more gutter) ∧
    (∀ row ∈ rows, Fitting columns (max (width - gutter.len) 1) row.text ∧
      ∀ c ∈ row.text, isUnsafe c = false ∧ c ≠ '\t' ∧ c ≠ '\n') ∧
    pane.maxScroll = rows.length - height ∧
    pane.rows = (rows.drop (pane.maxScroll - min scroll pane.maxScroll)).take height := by
  have hclean : peer.scrollback.Clean := ((App.reachable_shown keys turns).clean.peers label peer hpeer).2.scrollback
  refine ⟨?_, ?_, rfl, drawMessages_rows height scroll _⟩
  · intro entry _
    obtain ⟨lines, hwrap, hlines, htext⟩ := wrap_lines columns (width - gutter.len) entry.text
    exact ⟨⟨lines, (entryRows_text entry).trans hwrap, hlines, htext⟩, entryRows_gutter entry⟩
  · intro row hrow
    obtain ⟨entry, hentry, hrow⟩ := List.mem_flatMap.1 hrow
    have hmem := mem_entryRows hrow
    refine ⟨wrap_fitting entry.text row.text hmem, ?_⟩
    intro c hc
    obtain ⟨hentryc, hnewline⟩ := mem_of_mem_wrap hmem c hc
    obtain ⟨hsafe, htab⟩ := hclean entry hentry c hentryc
    exact ⟨hsafe, htab, hnewline⟩

def Sample.hearing : List (Replies × Input) :=
  Sample.asking ++ [Sample.press .enter, Sample.receive (.conn ⟨1⟩ (.established (Bytes.replicate 32 7))),
    Sample.receive (.conn ⟨1⟩ (.message [104, 105, 10, 116, 104, 101, 114, 101, 44, 32, 121, 111, 117]))]

open Cli.Sample in
/-- Two entries of eight rows in a pane of four, scrolled up by two. -/
theorem pane_draws_history_hearing : ∃ peer,
    (final App.step (App.new .default) hearing).peers.lookup "peer1".toList = some peer ∧
      (drawMessages (fun _ => 1) 12 4 2 peer.scrollback.scrollback.entries).rows.map
          (fun row => (row.gutter, row.text)) =
        [(gutter, "on est".toList), (gutter, "ablish".toList), (gutter, "ed".toList),
          ("peer  ".toList, "hi".toList)] ∧
      ∀ row ∈ peer.scrollback.scrollback.entries.flatMap (entryRows (fun _ => 1) (12 - gutter.len)),
        Fitting (fun _ => 1) (max (12 - gutter.len) 1) row.text ∧
          ∀ c ∈ row.text, isUnsafe c = false ∧ c ≠ '\t' ∧ c ≠ '\n' := by
  have hdrawn : ((final App.step (App.new .default) hearing).peers.lookup "peer1".toList).any (fun peer =>
      (drawMessages (fun _ => 1) 12 4 2 peer.scrollback.scrollback.entries).rows.map
          (fun row => (row.gutter, row.text)) =
        [(gutter, "on est".toList), (gutter, "ablish".toList), (gutter, "ed".toList),
          ("peer  ".toList, "hi".toList)]) = true := by
    decide +kernel
  obtain ⟨peer, hpeer, hrows⟩ := (Option.any_eq_true ..).1 hdrawn
  exact ⟨peer, hpeer, of_decide_eq_true hrows,
    (pane_draws_history (fun _ => 1) 12 4 2 .default hearing hpeer).2.1⟩

end Ruxmsg.Cli
