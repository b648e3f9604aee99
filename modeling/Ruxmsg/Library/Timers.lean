import Mathlib.Data.List.Nodup
import Mathlib.Data.List.Pairwise
import Mathlib.Order.Basic
import Mathlib.Data.Nat.Basic

namespace Ruxmsg.Library.Timers

variable {κ : Type*}

/-- What the owner of a timer table tells the one who keeps the clock. -/
inductive Command (κ : Type*)
  | set (id : ℕ) (kind : κ)
  | cancel (id : ℕ)

def replay (ids : List ℕ) : List (Command κ) → List ℕ
  | [] => ids
  | .set id _ :: commands => replay (ids ++ [id]) commands
  | .cancel id :: commands => replay (ids.filter (· ≠ id)) commands

def Command.setId : Command κ → Option ℕ
  | .set id _ => some id
  | .cancel _ => none

def setIds (commands : List (Command κ)) : List ℕ := commands.filterMap Command.setId

/-- Armed timers: every id is used once, and no kind is armed twice. -/
@[ext] structure Table (κ : Type*) where
  entries : List (ℕ × κ)
  next : ℕ
  below : ∀ entry ∈ entries, entry.1 < next
  ascending : entries.Pairwise fun a b => a.1 < b.1
  kinds_nodup : (entries.map Prod.snd).Nodup

namespace Table

def empty : Table κ :=
  { entries := [], next := 0, below := by simp, ascending := .nil, kinds_nodup := List.nodup_nil }

def ids (t : Table κ) : List ℕ := t.entries.map Prod.fst

def keep (t : Table κ) (p : ℕ × κ → Bool) : Table κ :=
  { entries := t.entries.filter p
    next := t.next
    below := fun entry he => t.below entry (List.mem_of_mem_filter he)
    ascending := t.ascending.filter p
    kinds_nodup := t.kinds_nodup.sublist (List.filter_sublist.map Prod.snd) }

def push (t : Table κ) (kind : κ) (h : kind ∉ t.entries.map Prod.snd) : Table κ :=
  { entries := t.entries ++ [(t.next, kind)]
    next := t.next + 1
    below := by
      intro entry he
      rcases List.mem_append.1 he with he | he
      · exact (t.below entry he).trans (Nat.lt_succ_self _)
      · rw [List.mem_singleton.1 he]
        exact Nat.lt_succ_self _
    ascending := by
      rw [List.pairwise_append]
      refine ⟨t.ascending, List.pairwise_singleton _ _, ?_⟩
      intro a ha b hb
      rw [List.mem_singleton.1 hb]
      exact t.below a ha
    kinds_nodup := by
      rw [List.map_append, List.nodup_append]
      refine ⟨t.kinds_nodup, List.nodup_singleton _, ?_⟩
      rintro a ha b hb rfl
      rw [List.mem_singleton.1 hb] at ha
      exact h ha }

/-- Commands take the clock keeper from one table to another, with ids that
have not been used before. -/
structure Leads (t : Table κ) (commands : List (Command κ)) (t' : Table κ) : Prop where
  replay_eq : replay t.ids commands = t'.ids
  next_le : t.next ≤ t'.next
  fresh : ∀ id ∈ setIds commands, t.next ≤ id ∧ id < t'.next
  ascending : (setIds commands).Pairwise (· < ·)

variable {t t' t'' : Table κ} {commands commands' : List (Command κ)}

theorem ids_nodup (t : Table κ) : t.ids.Nodup := by
  rw [ids, List.Nodup, List.pairwise_map]
  exact t.ascending.imp fun hlt => hlt.ne

theorem replay_append (ids : List ℕ) (commands commands' : List (Command κ)) :
    replay ids (commands ++ commands') = replay (replay ids commands) commands' := by
  induction commands generalizing ids with
  | nil => rfl
  | cons command commands ih =>
      cases command with
      | set id kind => exact ih _
      | cancel id => exact ih _

theorem Leads.refl (t : Table κ) : t.Leads [] t :=
  ⟨rfl, le_rfl, fun _ hid => absurd hid List.not_mem_nil, .nil⟩

theorem Leads.trans (h : t.Leads commands t') (h' : t'.Leads commands' t'') :
    t.Leads (commands ++ commands') t'' := by
  have hids : setIds (commands ++ commands') = setIds commands ++ setIds commands' :=
    List.filterMap_append
  refine ⟨?_, h.next_le.trans h'.next_le, ?_, ?_⟩
  · rw [replay_append, h.replay_eq, h'.replay_eq]
  · intro id hid
    rw [hids] at hid
    rcases List.mem_append.1 hid with hid | hid
    · obtain ⟨hlo, hhi⟩ := h.fresh id hid
      exact ⟨hlo, hhi.trans_le h'.next_le⟩
    · obtain ⟨hlo, hhi⟩ := h'.fresh id hid
      exact ⟨h.next_le.trans hlo, hhi⟩
  · rw [hids, List.pairwise_append]
    refine ⟨h.ascending, h'.ascending, ?_⟩
    intro a ha b hb
    exact (h.fresh a ha).2.trans_le (h'.fresh b hb).1

/-- Cancelling one by one what a filter drops. -/
theorem replay_cancels (entries : List (ℕ × κ)) (ids : List ℕ) :
    replay ids (entries.map fun entry => (.cancel entry.1 : Command κ)) =
      ids.filter (· ∉ entries.map Prod.fst) := by
  induction entries generalizing ids with
  | nil => simp [replay]
  | cons entry entries ih =>
      rw [List.map_cons, replay, ih, List.filter_filter]
      congr 1
      funext id
      simp only [List.map_cons, List.mem_cons, not_or, Bool.decide_and, decide_not]
      exact Bool.and_comm _ _

theorem setIds_cancels (entries : List (ℕ × κ)) :
    setIds (entries.map fun entry => (.cancel entry.1 : Command κ)) = [] := by
  rw [setIds, List.filterMap_map]
  exact List.filterMap_eq_nil_iff.2 fun _ _ => rfl

theorem leads_keep (t : Table κ) (p : ℕ × κ → Bool) :
    t.Leads ((t.entries.filter fun entry => ! p entry).map fun entry => .cancel entry.1) (t.keep p) := by
  refine ⟨?_, le_rfl, ?_, ?_⟩
  · rw [replay_cancels, ids, List.filter_map, ids, keep]
    congr 1
    apply List.filter_congr
    intro entry he
    have huniq : ∀ other ∈ t.entries, other.1 = entry.1 → other = entry := by
      intro other ho heq
      exact List.inj_on_of_nodup_map t.ids_nodup ho he heq
    cases hp : p entry with
    | true =>
        simp only [Function.comp_apply, decide_eq_true_eq, List.mem_map, List.mem_filter]
        rintro ⟨other, ⟨ho, hpo⟩, heq⟩
        rw [huniq other ho heq, hp] at hpo
        cases hpo
    | false =>
        simp only [Function.comp_apply, decide_eq_false_iff_not, not_not]
        exact List.mem_map.2 ⟨entry, List.mem_filter.2 ⟨he, by rw [hp]; rfl⟩, rfl⟩
  · intro id hid
    rw [setIds_cancels] at hid
    cases hid
  · rw [setIds_cancels]
    exact .nil

theorem leads_push (t : Table κ) (kind : κ) (h : kind ∉ t.entries.map Prod.snd) :
    t.Leads [.set t.next kind] (t.push kind h) := by
  refine ⟨?_, Nat.le_succ _, ?_, List.pairwise_singleton _ _⟩
  · rw [replay, replay, ids, ids, push, List.map_append]
    rfl
  · intro id hid
    rw [show setIds [(.set t.next kind : Command κ)] = [t.next] from rfl] at hid
    rw [List.mem_singleton.1 hid]
    exact ⟨le_rfl, Nat.lt_succ_self _⟩

/-- Ids are not used twice, so the first entry of an id is its only one. -/
theorem eraseP_entries (t : Table κ) (id : ℕ) :
    t.entries.eraseP (·.1 = id) = (t.keep fun entry => entry.1 ≠ id).entries := by
  have hids := t.ids_nodup
  rw [ids] at hids
  rw [keep]
  dsimp only
  generalize t.entries = entries at hids ⊢
  induction entries with
  | nil => rfl
  | cons entry entries ih =>
      rw [List.map_cons, List.nodup_cons] at hids
      by_cases heq : entry.1 = id
      · have hrest : ∀ other ∈ entries, other.1 ≠ id := by
          rintro other ho rfl
          exact hids.1 (heq ▸ List.mem_map_of_mem ho)
        rw [List.eraseP_cons_of_pos (by simpa using heq), List.filter_cons_of_neg (by simpa using heq)]
        symm
        apply List.filter_eq_self.2
        intro other ho
        exact decide_eq_true (hrest other ho)
      · rw [List.eraseP_cons_of_neg (by simpa using heq), List.filter_cons_of_pos (by simpa using heq),
          ih hids.2]

theorem mem_kinds_keep (t : Table κ) {entry : ℕ × κ} (he : entry ∈ t.entries) (kind : κ) :
    kind ∈ (t.keep fun other => other.1 ≠ entry.1).entries.map Prod.snd ↔
      kind ≠ entry.2 ∧ kind ∈ t.entries.map Prod.snd := by
  rw [keep, List.mem_map, List.mem_map]
  constructor
  · rintro ⟨other, ho, rfl⟩
    obtain ⟨ho, hne⟩ := List.mem_filter.1 ho
    refine ⟨?_, other, ho, rfl⟩
    intro heq
    exact of_decide_eq_true hne (congrArg Prod.fst (List.inj_on_of_nodup_map t.kinds_nodup ho he heq))
  · rintro ⟨hne, other, ho, rfl⟩
    refine ⟨other, List.mem_filter.2 ⟨ho, decide_eq_true ?_⟩, rfl⟩
    intro heq
    exact hne (congrArg Prod.snd (List.inj_on_of_nodup_map t.ids_nodup ho he heq))

theorem cancel_mem_of_replay {ids : List ℕ} {commands : List (Command κ)} {id : ℕ} (h : id ∈ ids)
    (hgone : id ∉ replay ids commands) : .cancel id ∈ commands := by
  induction commands generalizing ids with
  | nil => exact absurd h hgone
  | cons command commands ih =>
      cases command with
      | set id' kind => exact List.mem_cons_of_mem _ (ih (List.mem_append_left _ h) hgone)
      | cancel id' =>
          by_cases heq : id = id'
          · rw [heq]
            exact List.mem_cons_self
          · exact List.mem_cons_of_mem _ (ih (List.mem_filter.2 ⟨h, by simpa using heq⟩) hgone)

theorem cancel_mem_of_set {ids : List ℕ} {commands : List (Command κ)} {id : ℕ} {kind : κ}
    (h : .set id kind ∈ commands) (hgone : id ∉ replay ids commands) : .cancel id ∈ commands := by
  obtain ⟨before, after, rfl⟩ := List.append_of_mem h
  rw [replay_append] at hgone
  have hafter := cancel_mem_of_replay (List.mem_append_right _ List.mem_cons_self) hgone
  exact List.mem_append_right _ (List.mem_cons_of_mem _ hafter)

/-- An id that is left and was not set again has been there all along. -/
theorem mem_of_replay {ids : List ℕ} {commands : List (Command κ)} {id : ℕ} (h : id ∈ replay ids commands)
    (hset : id ∉ setIds commands) : id ∈ ids ∧ .cancel id ∉ commands := by
  induction commands generalizing ids with
  | nil => exact ⟨h, List.not_mem_nil⟩
  | cons command commands ih =>
      cases command with
      | set id' kind =>
          obtain ⟨hne, hset⟩ := not_or.1 (mt List.mem_cons.2 hset)
          obtain ⟨hmem, hnone⟩ := ih h hset
          refine ⟨(List.mem_append.1 hmem).resolve_right (mt List.mem_singleton.1 hne), ?_⟩
          simpa using hnone
      | cancel id' =>
          obtain ⟨hmem, hnone⟩ := ih h hset
          obtain ⟨hmem, hne⟩ := List.mem_filter.1 hmem
          refine ⟨hmem, ?_⟩
          rw [List.mem_cons, not_or]
          refine ⟨?_, hnone⟩
          rintro ⟨⟩
          simp at hne

end Table

end Ruxmsg.Library.Timers
