import Ruxmsg.Cli.Handles

namespace Ruxmsg.Cli

open Library Library.Grammar

section Count

variable {self self' : Facade} {n : Nat} {conn conn' : Spawned}

def Facade.held (self : Facade) : Nat := self.conns.countP Spawned.holds

theorem countP_holds_set (conn' : Spawned) (hn : self.conns[n]? = some conn) :
    (self.conns.set n conn').countP Spawned.holds + (if conn.holds then 1 else 0) =
      self.held + if conn'.holds then 1 else 0 := by
  obtain ⟨hlt, rfl⟩ := List.getElem?_eq_some_iff.1 hn
  have hpos : (if self.conns[n].holds then 1 else 0) ≤ self.held := by
    split
    · next hholds => exact List.countP_pos_iff.2 ⟨_, List.getElem_mem hlt, hholds⟩
    · exact Nat.zero_le _
  rw [List.countP_set hlt]
  exact (by omega : self.held - (if self.conns[n].holds then 1 else 0) + (if conn'.holds then 1 else 0) +
    (if self.conns[n].holds then 1 else 0) = self.held + if conn'.holds then 1 else 0)

theorem held_set (hn : self.conns[n]? = some conn) (hconns : self'.conns = self.conns.set n conn')
    (hback : conn'.holds = true → conn.holds = true)
    (hfree : self'.unauthenticated =
      if conn.holds && !conn'.holds then self.unauthenticated + 1 else self.unauthenticated) :
    self'.unauthenticated + self'.held = self.unauthenticated + self.held := by
  have hcount := countP_holds_set conn' hn
  rw [hfree, Facade.held, hconns]
  cases hholds : conn.holds with
  | true =>
      rw [hholds] at hcount
      cases hholds' : conn'.holds with
      | true =>
          rw [hholds'] at hcount
          exact congrArg _ (Nat.add_right_cancel hcount)
      | false =>
          rw [hholds'] at hcount
          exact (Nat.succ_add_eq_add_succ ..).trans (congrArg _ hcount)
  | false =>
      have hholds' : conn'.holds = false := Bool.eq_false_iff.2 fun h => by simp [hback h] at hholds
      rw [hholds, hholds'] at hcount
      exact congrArg _ hcount

theorem held_kept (hn : self.conns[n]? = some conn) (hconns : self'.conns = self.conns.set n conn')
    (hsame : conn'.holds = conn.holds) (hfree : self'.unauthenticated = self.unauthenticated) :
    self'.unauthenticated + self'.held = self.unauthenticated + self.held := by
  refine held_set hn hconns (fun h => hsame ▸ h) ?_
  rw [hfree, hsame, Bool.and_not_self, if_neg Bool.false_ne_true]

theorem held_advance (hn : self.conns[n]? = some conn) (hlife : conn.life ≠ .ended)
    (hsame : ∃ messages control, conn' = { conn with messages, control }) {task : Task}
    (hpermit : task.permit = true → conn.task.permit = true) :
    (self.advance n conn' task).unauthenticated + (self.advance n conn' task).held =
      self.unauthenticated + self.held := by
  obtain ⟨messages, control, rfl⟩ := hsame
  have hholds : conn.holds = conn.task.permit := by simp [Spawned.holds, hlife]
  have hholds' : Spawned.holds { conn with messages, control, life := .running, task } = task.permit := by
    simp [Spawned.holds]
  refine held_set hn rfl ?_ ?_
  · rw [hholds, hholds']
    exact hpermit
  · rw [hholds, hholds']
    rfl

end Count

variable [Ciborium] [Primitives]

theorem Facade.Does.permits {self self' : Facade} {incident : Incident} (h : self.Does incident self') :
    self'.unauthenticated + self'.held = self.unauthenticated + self.held := by
  have hspawn (remote : Text) (outbound : Bool) (entropy : Entropy) (world : World) :
      (self.spawn remote outbound entropy world).held =
        self.held + if self.heard && !outbound then 1 else 0 := by
    rw [held, spawn, List.countP_append]
    congr 1
    cases self.heard <;> cases outbound <;> rfl
  cases h with
  | @accepts remote entropy world hfree =>
      have hheld := hspawn remote false entropy world
      rw [Bool.not_false, Bool.and_true] at hheld
      change (if self.heard then self.unauthenticated - 1 else self.unauthenticated) +
        (self.spawn remote false entropy world).held = _
      split_ifs at hheld ⊢ <;> omega
  | @connects remote entropy world =>
      have hheld := hspawn remote true entropy world
      rw [Bool.not_true, Bool.and_false] at hheld
      exact congrArg _ hheld
  | reports | takes | deafens => rfl
  | @passes n conn _ hn =>
      refine held_kept hn rfl ?_ rfl
      rw [Spawned.holds, Spawned.holds]
      by_cases hlife : conn.life = .announcing <;> simp [hlife]
  | sends hn | orders hn => exact held_kept hn rfl rfl rfl
  | starts hn hlife => exact held_advance hn (by simp [hlife]) ⟨_, _, rfl⟩ (Task.apply_later ..).permit
  | wakes hn hspends hlife =>
      obtain ⟨hsame, -⟩ := Spawned.spends_eq_some hspends
      refine held_advance hn (by simp [hlife]) hsame ?_
      obtain ⟨_, _, rfl⟩ := hsame
      exact (Task.wake_later ..).permit
  | @ends n conn hn hlife =>
      have hholds : conn.holds = conn.task.permit := by simp [Spawned.holds, hlife]
      refine held_set hn rfl (by simp [Spawned.holds]) ?_
      rw [hholds]
      simp [Spawned.holds]

theorem Facade.runs_permits (identity : IdentityKeypair) {past : List Incident} {self : Facade}
    (h : reads Facade.step (.new identity) past = some self) :
    self.unauthenticated + self.held = maxUnauthenticatedHandshakes :=
  reads_induction (fun _ self => self.unauthenticated + self.held = maxUnauthenticatedHandshakes) rfl
    (fun _ _ _ _ hs hstep => (Facade.step_does hstep).permits.trans hs) h

def Spawned.Unauthenticated (self : Spawned) : Prop :=
  self.outbound = false ∧ self.life ≠ .ended ∧ (self.task.engine.phase = .idle ∨ self.task.engine.phase = .handshaking)

instance (self : Spawned) : Decidable self.Unauthenticated := by
  rw [Spawned.Unauthenticated]
  infer_instance

theorem Spawned.Sound.holds_iff {identity : IdentityKeypair} {past : List Incident} {n : Nat} {conn : Spawned}
    (h : conn.Sound identity past n) : conn.holds = true ↔ conn.Unauthenticated := by
  obtain ⟨inputs, hfollows, -⟩ := h.run
  obtain ⟨stage, hreads, hreached⟩ := hfollows.stage
  have hpermit : conn.task.permit = (!conn.outbound && stage.unauthenticated) := by
    rw [flag_of_reads Stage.next_unauthenticated hreads]
    exact hfollows.permit
  have hphase : stage.unauthenticated = true ↔
      conn.task.engine.phase = .idle ∨ conn.task.engine.phase = .handshaking := by
    cases stage with
    | handshaking => exact iff_of_true rfl hreached.1
    | asked => exact iff_of_true rfl (.inr hreached.1)
    | established => exact iff_of_false (by simp [Stage.unauthenticated]) (by simp [hreached.1])
    | closed =>
        have hclosed : conn.task.engine.phase = .closed := hreached
        exact iff_of_false (by simp [Stage.unauthenticated]) (by simp [hclosed])
  rw [Spawned.holds, hpermit, Bool.and_eq_true, Bool.and_eq_true, hphase, Spawned.Unauthenticated, decide_eq_true_eq,
    Bool.not_eq_true']
  tauto

/-- Whatever strangers do, a facade has at most four handshakes with them under
way at a time, and no permit is lost: those that are not out are free. -/
theorem handshakes_bounded (identity : IdentityKeypair) (past : List Incident) (self : Facade)
    (h : reads Facade.step (.new identity) past = some self) :
    self.unauthenticated + self.conns.countP (fun conn => conn.Unauthenticated) = maxUnauthenticatedHandshakes ∧
      self.conns.countP (fun conn => conn.Unauthenticated) ≤ 4 := by
  have hcount : self.conns.countP (fun conn => conn.Unauthenticated) = self.held := by
    apply List.countP_congr
    intro conn hconn
    obtain ⟨n, hn⟩ := List.mem_iff_getElem?.1 hconn
    rw [((Facade.runs_sound identity h).conns n conn hn).holds_iff]
    exact decide_eq_true_iff
  have hpermits := Facade.runs_permits identity h
  rw [hcount]
  refine ⟨hpermits, ?_⟩
  rw [maxUnauthenticatedHandshakes] at hpermits
  omega

end Ruxmsg.Cli

namespace Ruxmsg.Cli

open Library.Grammar Ruxmsg.Sample

/-- The stranger is still to be authenticated, which leaves three permits. -/
theorem handshakes_bounded_arriving : ∃ self : Facade,
    reads Facade.step (.new leftIdentity) Sample.arriving = some self ∧
      self.unauthenticated + self.conns.countP (fun conn => conn.Unauthenticated) = 4 ∧ self.unauthenticated = 3 := by
  have hrun : ((reads Facade.step (.new leftIdentity) Sample.arriving).any fun self =>
      self.unauthenticated = 3) = true := by
    decide +kernel
  obtain ⟨self, hself, hfree⟩ := (Option.any_eq_true _ _).1 hrun
  exact ⟨self, hself, (handshakes_bounded leftIdentity Sample.arriving self hself).1, of_decide_eq_true hfree⟩

end Ruxmsg.Cli
