import Ruxmsg.Ratchet
import Ruxmsg.Library.Machine
import Ruxmsg.Library.Window

namespace Ruxmsg

open Library.Machine Library.Window

/-- `accept` as the step of a machine: a rejected counter leaves the window as it is. -/
def ReplayWindow.offer (window : ReplayWindow) (counter : Nat) : ReplayWindow × Result Unit :=
  match window.accept counter with
  | .ok window => (window, .ok ())
  | .error error => (window, .error error)

def acceptedCounters (counters : List Nat) : Set Nat :=
  {c | ∃ call ∈ trace ReplayWindow.offer ReplayWindow.empty counters, call.out = .ok () ∧ call.input = c}

/-- A window that knows which of the last counters it has accepted. -/
def ReplayWindow.Keeps (window : ReplayWindow) (A : Set Nat) : Prop :=
  (window.highest = none ∧ A = ∅) ∨
    ∃ highest, window.highest = some highest ∧ Marks replayWindowSize window.bits highest A

variable {window : ReplayWindow} {A : Set Nat} {counter highest : Nat}

theorem ReplayWindow.offer_of_ok {window' : ReplayWindow} (h : window.accept counter = .ok window') :
    window.offer counter = (window', .ok ()) := by
  rw [offer, h]

theorem ReplayWindow.offer_of_error {error : Error} (h : window.accept counter = .error error) :
    window.offer counter = (window, .error error) := by
  rw [offer, h]

theorem ReplayWindow.accept_isOk : (∃ window', window.accept counter = .ok window') ↔
    window.classify counter = .new := by
  rw [accept]
  by_cases h : window.classify counter = .new
  · rw [if_neg (not_not.2 h)]
    exact ⟨fun _ => h, fun _ => ⟨_, rfl⟩⟩
  · rw [if_pos h]
    constructor
    · rintro ⟨window', hw⟩
      cases hw
    · intro hn
      exact absurd hn h

theorem ReplayWindow.Keeps.classify (h : window.Keeps A) (counter : Nat) :
    (A = ∅ → window.classify counter = .new) ∧
      ∀ highest, IsGreatest A highest → window.highest = some highest ∧
        (highest < counter → window.classify counter = .new) ∧
        (counter ≤ highest → 64 ≤ highest - counter → window.classify counter = .tooOld) ∧
        (counter ≤ highest → highest - counter < 64 → counter ∈ A →
          window.classify counter = .duplicate) ∧
        (counter ≤ highest → highest - counter < 64 → counter ∉ A →
          window.classify counter = .new) := by
  rcases h with ⟨hnone, rfl⟩ | ⟨top, htop, hm⟩
  · constructor
    · intro _
      rw [ReplayWindow.classify, hnone]
    · intro highest hg
      exact absurd hg.1 (Set.notMem_empty highest)
  · constructor
    · rintro rfl
      exact absurd hm.greatest.1 (Set.notMem_empty top)
    · intro highest hg
      obtain rfl : top = highest := hm.greatest.unique hg
      rw [ReplayWindow.classify, htop]
      dsimp only
      have hsize : replayWindowSize = 64 := rfl
      have hbit : counter ≤ top → top - counter < 64 →
          (window.bits &&& (1 <<< (top - counter)) ≠ 0 ↔ counter ∈ A) := by
        intro hle hlt
        rw [and_shiftLeft_ne_zero]
        exact hm.mem_iff hle hlt
      refine ⟨rfl, ?_, ?_, ?_, ?_⟩
      · intro hlt
        rw [if_pos hlt]
      · intro hle hold
        rw [if_neg (Nat.not_lt.2 hle), hsize, if_pos hold]
      · intro hle hlt hmem
        rw [if_neg (Nat.not_lt.2 hle), hsize, if_neg (Nat.not_le.2 hlt), if_pos ((hbit hle hlt).2 hmem)]
      · intro hle hlt hmem
        rw [if_neg (Nat.not_lt.2 hle), hsize, if_neg (Nat.not_le.2 hlt),
          if_neg fun hne => hmem ((hbit hle hlt).1 hne)]

/-- A window that has accepted only counters below a bound takes every other. -/
theorem ReplayWindow.Keeps.classify_new (h : window.Keeps A)
    (hA : ∀ a ∈ A, a < counter) : window.classify counter = .new := by
  obtain ⟨hempty, hsome⟩ := h.classify counter
  rcases h with ⟨-, rfl⟩ | ⟨highest, -, hm⟩
  · exact hempty rfl
  · obtain ⟨-, hnew, -⟩ := hsome highest hm.greatest
    exact hnew (hA highest hm.greatest.1)

theorem ReplayWindow.Keeps.classify_old (h : window.Keeps A)
    (hA : counter ∈ A) : window.classify counter ≠ .new := by
  obtain ⟨-, hsome⟩ := h.classify counter
  rcases h with ⟨-, rfl⟩ | ⟨highest, -, hm⟩
  · exact absurd hA (Set.notMem_empty counter)
  · obtain ⟨-, -, hold, hdup, -⟩ := hsome highest hm.greatest
    have hle : counter ≤ highest := hm.greatest.2 hA
    by_cases hfar : 64 ≤ highest - counter
    · rw [hold hle hfar]
      decide
    · rw [hdup hle (Nat.lt_of_not_le hfar) hA]
      decide

/-- Accepting a counter adds it to the set, by whichever of the three ways the window takes. -/
theorem ReplayWindow.Keeps.accept (h : window.Keeps A) {window' : ReplayWindow}
    (hw : window.accept counter = .ok window') : window'.Keeps (insert counter A) := by
  right
  have hnew : window.classify counter = .new := ReplayWindow.accept_isOk.1 ⟨window', hw⟩
  rw [ReplayWindow.accept, if_neg (not_not.2 hnew)] at hw
  obtain rfl := Except.ok.inj hw
  rcases h with ⟨hnone, rfl⟩ | ⟨top, htop, hm⟩
  · rw [hnone, insert_empty_eq]
    exact ⟨counter, rfl, marks_singleton⟩
  · rw [htop]
    dsimp only
    by_cases hlt : top < counter
    · rw [if_pos hlt]
      refine ⟨counter, rfl, ?_⟩
      by_cases hfar : 64 ≤ counter - top
      · rw [if_pos hfar]
        exact hm.jump hlt hfar
      · rw [if_neg hfar]
        exact hm.slide hlt
    · rw [if_neg hlt]
      exact ⟨top, rfl, hm.insert_old (Nat.le_of_not_lt hlt)⟩

theorem acceptedCounters_nil : acceptedCounters [] = ∅ := by
  ext c
  constructor
  · rintro ⟨call, hcall, -⟩
    cases hcall
  · intro hc
    exact absurd hc (Set.notMem_empty c)

theorem acceptedCounters_append (counters : List Nat) (counter : Nat) :
    (∀ window', (final ReplayWindow.offer ReplayWindow.empty counters).accept counter = .ok window' →
      acceptedCounters (counters ++ [counter]) = insert counter (acceptedCounters counters)) ∧
    ∀ error, (final ReplayWindow.offer ReplayWindow.empty counters).accept counter = .error error →
      acceptedCounters (counters ++ [counter]) = acceptedCounters counters := by
  have happend : ∀ c, c ∈ acceptedCounters (counters ++ [counter]) ↔ c ∈ acceptedCounters counters ∨
      ((final ReplayWindow.offer ReplayWindow.empty counters).offer counter).2 = .ok () ∧
        counter = c := by
    intro c
    rw [acceptedCounters, acceptedCounters]
    simp only [trace_append, trace, List.mem_append, List.mem_singleton,
      Set.mem_ofPred_eq, or_and_right, exists_or, exists_eq_left, record_out, record_input]
  constructor
  · intro window' hw
    ext c
    rw [happend, ReplayWindow.offer_of_ok hw, Set.mem_insert_iff, or_comm]
    simp [eq_comm]
  · intro error he
    ext c
    rw [happend, ReplayWindow.offer_of_error he]
    simp

theorem keeps_acceptedCounters (counters : List Nat) :
    (final ReplayWindow.offer ReplayWindow.empty counters).Keeps (acceptedCounters counters) := by
  induction counters using List.reverseRecOn with
  | nil => exact .inl ⟨rfl, acceptedCounters_nil⟩
  | append_singleton counters counter ih =>
      rw [final_append, final_cons, final_nil]
      obtain ⟨hok, herror⟩ := acceptedCounters_append counters counter
      cases hw : (final ReplayWindow.offer ReplayWindow.empty counters).accept counter with
      | ok window' =>
          rw [hok window' hw, ReplayWindow.offer_of_ok hw]
          exact ih.accept hw
      | error error =>
          rw [herror error hw, ReplayWindow.offer_of_error hw]
          exact ih

/-- After any calls the bitmap is the set of the accepted counters, as far as the window reaches. -/
theorem replay_window_is_set (counters : List Nat) :
    let window : ReplayWindow := final ReplayWindow.offer ReplayWindow.empty counters
    let A := acceptedCounters counters
    ((A = ∅ ∧ window.highest = none) ∨ ∃ highest, IsGreatest A highest ∧ window.highest = some highest) ∧
    ∀ counter,
      ((A = ∅ → window.classify counter = .new) ∧
        ∀ highest, IsGreatest A highest → window.highest = some highest ∧
          (highest < counter → window.classify counter = .new) ∧
          (counter ≤ highest → 64 ≤ highest - counter → window.classify counter = .tooOld) ∧
          (counter ≤ highest → highest - counter < 64 → counter ∈ A →
            window.classify counter = .duplicate) ∧
          (counter ≤ highest → highest - counter < 64 → counter ∉ A →
            window.classify counter = .new)) ∧
      ((window.offer counter).2 = .ok () ↔ window.classify counter = .new) ∧
      (window.classify counter ≠ .new → (window.offer counter).1 = window) := by
  intro window A
  have hkeeps : window.Keeps A := keeps_acceptedCounters counters
  refine ⟨?_, ?_⟩
  · rcases hkeeps with ⟨hnone, hempty⟩ | ⟨top, htop, hm⟩
    · exact .inl ⟨hempty, hnone⟩
    · exact .inr ⟨top, hm.greatest, htop⟩
  · intro counter
    refine ⟨hkeeps.classify counter, ?_⟩
    cases hw : window.accept counter with
    | ok window' =>
        have hnew := ReplayWindow.accept_isOk.1 ⟨window', hw⟩
        rw [ReplayWindow.offer_of_ok hw]
        exact ⟨⟨fun _ => hnew, fun _ => rfl⟩, fun h => absurd hnew h⟩
    | error error =>
        rw [ReplayWindow.offer_of_error hw]
        have hold : window.classify counter ≠ .new := by
          intro hnew
          obtain ⟨window', hw'⟩ := ReplayWindow.accept_isOk.2 hnew
          cases hw.symm.trans hw'
        refine ⟨⟨?_, fun h => absurd h hold⟩, fun _ => rfl⟩
        intro h
        cases h

end Ruxmsg
