import Ruxmsg.Machine
import Ruxmsg.Library.Timers

namespace Ruxmsg

open Library.Timers

def Effect.command : Effect → Option (Command DeadlineKind)
  | .setDeadline id kind _ => some (.set id kind)
  | .cancelDeadline id => some (.cancel id)
  | _ => none

def commands (effects : List Effect) : List (Command DeadlineKind) := effects.filterMap Effect.command

/-- The effects of a connection that goes on, timers apart. -/
def Effect.Untimed : Effect → Prop
  | .setDeadline _ _ _ | .cancelDeadline _ | .closeTransport | .notify (.closed _) => False
  | _ => True

def Effect.Ongoing : Effect → Prop
  | .closeTransport | .notify (.closed _) => False
  | _ => True

structure Engine.Shows (e : Engine) (t : Table DeadlineKind) : Prop where
  deadlines_eq : e.deadlines = t.entries
  next_eq : e.nextDeadline = t.next

namespace Ctx

/-- What a handler may do short of closing: at most `n` effects, and a table
that only its own operations change. -/
inductive Path : Nat → Ctx → Ctx → Prop
  | refl (c : Ctx) : Path 0 c c
  | push {n : Nat} {c d : Ctx} (effect : Effect) (plain : effect.Untimed) (path : Path n c d) :
      Path (n + 1) c (d.push effect)
  | update {n : Nat} {c d : Ctx} (f : Engine → Engine)
      (keeps : ∀ e : Engine, (f e).deadlines = e.deadlines ∧ (f e).nextDeadline = e.nextDeadline ∧
        (e.phase ≠ .closed → (f e).phase ≠ .closed)) (path : Path n c d) : Path n c (d.update f)
  | cancel {n : Nat} {c d : Ctx} (kind : DeadlineKind) (path : Path n c d) : Path (n + 1) c (d.cancel kind)
  | arm {n : Nat} {c d : Ctx} (kind : DeadlineKind) (after : Nat) (path : Path n c d) :
      Path (n + 2) c (d.arm kind after)
  | weaken {n m : Nat} {c d : Ctx} (le : n ≤ m) (path : Path n c d) : Path m c d

variable {n m : Nat} {c d e : Ctx}

theorem Path.trans (h : Path n c d) (k : Path m d e) : Path (n + m) c e := by
  induction k with
  | refl => exact h
  | push effect plain _ ih => exact (ih h).push effect plain
  | update f keeps _ ih => exact (ih h).update f keeps
  | cancel kind _ ih => exact (ih h).cancel kind
  | arm kind after _ ih => exact (ih h).arm kind after
  | weaken le _ ih => exact (ih h).weaken (Nat.add_le_add_left le _)

/-- What has been added to a context, and where it leaves the timers. -/
structure Tracks (n : Nat) (c d : Ctx) (t : Table DeadlineKind) (effects : List Effect)
    (t' : Table DeadlineKind) : Prop where
  out_eq : d.out = c.out ++ effects
  length_le : effects.length ≤ n
  shows : d.self.Shows t'
  leads : t.Leads (commands effects) t'

theorem Tracks.trans {t t' t'' : Table DeadlineKind} {effects effects' : List Effect}
    (h : Tracks n c d t effects t') (k : Tracks m d e t' effects' t'') :
    Tracks (n + m) c e t (effects ++ effects') t'' := by
  refine ⟨?_, ?_, k.shows, ?_⟩
  · rw [k.out_eq, h.out_eq, List.append_assoc]
  · rw [List.length_append]
    exact Nat.add_le_add h.length_le k.length_le
  · rw [commands, List.filterMap_append]
    exact h.leads.trans k.leads

theorem tracks_push {t : Table DeadlineKind} (hs : c.self.Shows t) {effect : Effect}
    (plain : effect.Untimed) : Tracks 1 c (c.push effect) t [effect] t := by
  refine ⟨rfl, le_rfl, hs, ?_⟩
  have hnone : commands [effect] = [] := by
    cases effect with
    | setDeadline | cancelDeadline => exact plain.elim
    | send | requestSas | deliver | notify | closeTransport => rfl
  rw [hnone]
  exact .refl t

theorem commands_cancels (entries : List (DeadlineId × DeadlineKind)) :
    commands (entries.map fun entry => .cancelDeadline entry.1) =
      entries.map fun entry => .cancel entry.1 := by
  rw [commands, List.filterMap_map]
  exact congrFun (List.filterMap_eq_map : List.filterMap
    (some ∘ fun entry : DeadlineId × DeadlineKind => (Command.cancel entry.1 : Command DeadlineKind)) = _) entries

theorem length_filter_kind (t : Table DeadlineKind) (kind : DeadlineKind) :
    (t.entries.filter (·.2 = kind)).length ≤ 1 := by
  have hcount : (t.entries.filter (·.2 = kind)).length = (t.entries.map Prod.snd).count kind := by
    rw [List.count, List.countP_map, List.countP_eq_length_filter]
    congr 1
  rw [hcount]
  exact List.nodup_iff_count_le_one.1 t.kinds_nodup kind

theorem tracks_cancel {t : Table DeadlineKind} (hs : c.self.Shows t) (kind : DeadlineKind) :
    Tracks 1 c (c.cancel kind) t ((t.entries.filter (·.2 = kind)).map fun entry => .cancelDeadline entry.1)
      (t.keep (·.2 ≠ kind)) := by
  refine ⟨?_, ?_, ⟨?_, hs.next_eq⟩, ?_⟩
  · rw [cancel, hs.deadlines_eq]
  · rw [List.length_map]
    exact length_filter_kind t kind
  · rw [cancel, Table.keep, hs.deadlines_eq]
  · have hleads := t.leads_keep (·.2 ≠ kind)
    rw [commands_cancels]
    simpa only [ne_eq, decide_not, Bool.not_not] using hleads

theorem tracks_arm {t : Table DeadlineKind} (hs : c.self.Shows t) (kind : DeadlineKind) (after : Nat) :
    ∃ effects t', Tracks 2 c (c.arm kind after) t effects t' ∧ ∀ effect ∈ effects, effect.Ongoing := by
  have hc := tracks_cancel hs kind
  have hfree : kind ∉ (t.keep (·.2 ≠ kind)).entries.map Prod.snd := by
    intro hmem
    obtain ⟨entry, he, heq⟩ := List.mem_map.1 hmem
    exact of_decide_eq_true (List.mem_filter.1 he).2 heq
  have hpush : Tracks 1 (c.cancel kind) (c.arm kind after) (t.keep (·.2 ≠ kind))
      [.setDeadline (c.cancel kind).self.nextDeadline kind after] (Table.push _ kind hfree) := by
    refine ⟨rfl, le_rfl, ⟨?_, ?_⟩, ?_⟩
    · rw [arm, Table.push, hc.shows.next_eq, hc.shows.deadlines_eq]
    · rw [arm, Table.push, hc.shows.next_eq]
    · rw [hc.shows.next_eq]
      exact Table.leads_push _ kind hfree
  refine ⟨_, _, hc.trans hpush, ?_⟩
  intro effect he
  rcases List.mem_append.1 he with he | he
  · obtain ⟨entry, -, rfl⟩ := List.mem_map.1 he
    trivial
  · rw [List.mem_singleton.1 he]
    trivial

/-- Along a path the effects tell the clock keeper all that happens to the table. -/
theorem Path.tracks (h : Path n c d) {t : Table DeadlineKind} (hs : c.self.Shows t) :
    ∃ effects t', Tracks n c d t effects t' ∧ (∀ effect ∈ effects, effect.Ongoing) ∧
      (c.self.phase ≠ .closed → d.self.phase ≠ .closed) := by
  induction h with
  | refl =>
      exact ⟨[], t, ⟨(List.append_nil _).symm, le_rfl, hs, .refl t⟩, by simp, id⟩
  | push effect plain _ ih =>
      obtain ⟨effects, t', htracks, hplain, hphase⟩ := ih hs
      refine ⟨_, t', htracks.trans (tracks_push htracks.shows plain), ?_, hphase⟩
      intro other ho
      rcases List.mem_append.1 ho with ho | ho
      · exact hplain other ho
      · rw [List.mem_singleton.1 ho]
        cases effect with
        | notify event =>
            cases event with
            | closed cause => exact plain.elim
            | _ => trivial
        | closeTransport => exact plain.elim
        | send | setDeadline | cancelDeadline | requestSas | deliver => trivial
  | update f keeps _ ih =>
      obtain ⟨effects, t', htracks, hplain, hphase⟩ := ih hs
      refine ⟨effects, t', ⟨htracks.out_eq, htracks.length_le, ⟨?_, ?_⟩, htracks.leads⟩, hplain, ?_⟩
      · exact (keeps _).1.trans htracks.shows.deadlines_eq
      · exact (keeps _).2.1.trans htracks.shows.next_eq
      · intro hp
        exact (keeps _).2.2 (hphase hp)
  | cancel kind _ ih =>
      obtain ⟨effects, t', htracks, hplain, hphase⟩ := ih hs
      refine ⟨_, _, htracks.trans (tracks_cancel htracks.shows kind), ?_, hphase⟩
      intro other ho
      rcases List.mem_append.1 ho with ho | ho
      · exact hplain other ho
      · obtain ⟨entry, -, rfl⟩ := List.mem_map.1 ho
        trivial
  | arm kind after _ ih =>
      obtain ⟨effects, t', htracks, hplain, hphase⟩ := ih hs
      obtain ⟨effects', t'', htracks', hplain'⟩ := tracks_arm htracks.shows kind after
      refine ⟨_, _, htracks.trans htracks', ?_, hphase⟩
      intro other ho
      rcases List.mem_append.1 ho with ho | ho
      · exact hplain other ho
      · exact hplain' other ho
  | weaken le _ ih =>
      obtain ⟨effects, t', htracks, hplain, hphase⟩ := ih hs
      exact ⟨effects, t', ⟨htracks.out_eq, htracks.length_le.trans le, htracks.shows, htracks.leads⟩, hplain,
        hphase⟩

end Ctx

end Ruxmsg
