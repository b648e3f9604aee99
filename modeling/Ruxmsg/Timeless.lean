import Ruxmsg.Machine

namespace Ruxmsg

def Engine.timeless (self : Engine) : Engine := { self with deadlines := [], nextDeadline := 0 }

/-- The effects other than timer requests. -/
def Effect.visible : Effect → Bool
  | .setDeadline _ _ _ | .cancelDeadline _ => false
  | _ => true

namespace Ctx

def view (c : Ctx) : Ctx := { self := c.self.timeless, out := c.out.filter Effect.visible }

def append (c : Ctx) (effects : List Effect) : Ctx := { c with out := c.out ++ effects }

@[simp] theorem filter_cancelDeadline (l : List (DeadlineId × DeadlineKind)) :
    (l.map fun d => Effect.cancelDeadline d.1).filter Effect.visible = [] := by
  rw [List.filter_eq_nil_iff]
  intro effect he
  obtain ⟨d, -, rfl⟩ := List.mem_map.1 he
  simp [Effect.visible]

theorem view_ext {c d : Ctx} (hs : c.self.timeless = d.self.timeless)
    (ho : c.out.filter Effect.visible = d.out.filter Effect.visible) : c.view = d.view := by
  simp [view, hs, ho]

@[simp] theorem view_cancel (c : Ctx) (kind : DeadlineKind) : (c.cancel kind).view = c.view := by
  apply view_ext
  · rfl
  · simp [cancel, List.filter_append]

@[simp] theorem view_arm (c : Ctx) (kind : DeadlineKind) (after : Nat) :
    (c.arm kind after).view = c.view := by
  rw [← view_cancel c kind]
  apply view_ext
  · rfl
  · simp [arm, List.filter_append, Effect.visible]

@[simp] theorem view_cancelAll (c : Ctx) : c.cancelAll.view = c.view := by
  apply view_ext
  · rfl
  · simp [cancelAll, List.filter_append]

@[simp] theorem view_rearmFrameDeadline (c : Ctx) (purpose : HandshakePurpose) (step : Step) :
    (c.rearmFrameDeadline purpose step).view = c.view := by
  rw [rearmFrameDeadline.eq_def]
  dsimp only
  split
  · simp
  · split_ifs <;> simp

theorem view_update (c : Ctx) (f : Engine → Engine) (hf : ∀ e : Engine, (f e).timeless = f e.timeless) :
    (c.update f).view = c.view.update f := by
  simp [view, update, hf]

theorem view_push (c : Ctx) (effect : Effect) (he : effect.visible = true) :
    (c.push effect).view = c.view.push effect := by
  simp [view, push, List.filter_append, he]

end Ctx

def Engine.ended (self : Engine) : Engine :=
  { self with run := none, active := none, draining := none, phase := .closed }

def Engine.abandoned (self : Engine) : Engine :=
  { self with run := none, lateRekeyFrames := lateRekeyFrameGrace, rekeyBlocked := true }

/-- The CLOSE frame, if any, the event and the end of the transport. -/
def Engine.closing [Ciborium] (self : Engine) (cause : CloseCause) (notifyPeer : Option CloseReason) :
    List Effect :=
  (match notifyPeer with
    | some reason =>
        match ClosePayload.encode { sessionId := self.activeSessionId, reason, detail := none } with
        | .ok frame => [.send frame]
        | .error _ => []
    | none => []) ++ [.notify (.closed cause), .closeTransport]

def Engine.established (self : Engine) (candidate : Candidate) : Engine :=
  { self with
    active := some (Session.new candidate.keys candidate.role candidate.peer)
    phase := .established
    messages := 0
    lateRekeyFrames := 0
    consecutiveRekeyRejections := 0 }

def Engine.promoted (self : Engine) (candidate : Candidate) : Engine :=
  { self with
    draining := self.active
    active := some (Session.new candidate.keys candidate.role candidate.peer)
    messages := 0
    rekeyBlocked := false
    lateRekeyFrames := 0
    consecutiveRekeyRejections := 0 }

def Engine.acceptsCandidate (self : Engine) (candidate : Candidate) : Prop :=
  ∃ active, self.active = some active ∧ active.peer = candidate.peer ∧
    active.id ≠ candidate.keys.sessionId

namespace Ctx

theorem view_failRekey (c : Ctx) (error : Error) :
    (c.failRekey error).view =
      ⟨c.self.timeless.abandoned,
        c.view.out ++ [.notify (.rekeyFailed (rekeyFailure error))]⟩ := by
  rw [failRekey]
  rw [view_push _ _ rfl, view_arm, view_update _ _ (by intro; rfl), view_cancel, view_cancel,
    view_update _ _ (by intro; rfl)]
  rfl

theorem view_completeInitial (c : Ctx) (candidate : Candidate) :
    (c.completeInitial candidate).view =
      ⟨c.self.timeless.established candidate,
        c.view.out ++ [.notify (.established candidate.peer)]⟩ := by
  rw [completeInitial]
  rw [view_push _ _ rfl, view_arm, view_update _ _ (by intro; rfl), view_cancel, view_cancel,
    view_cancel]
  rfl

theorem view_completeRekey (c : Ctx) (candidate : Candidate)
    (h : c.self.acceptsCandidate candidate) :
    (c.completeRekey candidate).view =
      ⟨c.self.timeless.promoted candidate, c.view.out ++ [.notify .rekeyCompleted]⟩ := by
  obtain ⟨active, ha, hp, hi⟩ := h
  rw [completeRekey]
  simp only [ha, Option.any_some, hp, hi, ne_eq, not_false_eq_true, and_self, decide_true,
    not_true_eq_false, if_false]
  rw [view_push _ _ rfl, view_update _ _ (by intro; rfl), view_arm, view_arm,
    view_update _ _ (by intro; rfl), view_cancel, view_cancel]
  rfl

theorem completeRekey_of_not_accepts (c : Ctx) (candidate : Candidate)
    (h : ¬ c.self.acceptsCandidate candidate) :
    c.completeRekey candidate = c.failRekey .identityMismatch := by
  rw [completeRekey]
  dsimp only
  rw [if_pos]
  intro hany
  apply h
  cases ha : c.self.active with
  | none => simp [ha] at hany
  | some active =>
      simp only [ha, Option.any_some, decide_eq_true_eq] at hany
      exact ⟨active, ha, hany.1, hany.2⟩

variable [Ciborium]

theorem terminate_self (c : Ctx) (cause : CloseCause) (reason : Option CloseReason) :
    (c.terminate cause reason).self =
      { c.self with deadlines := [], run := none, active := none, draining := none, phase := .closed } := by
  rw [terminate.eq_def]
  cases reason with
  | none => rfl
  | some reason =>
      dsimp only
      split
      · rfl
      · rfl

theorem terminate_phase (c : Ctx) (cause : CloseCause) (reason : Option CloseReason) :
    (c.terminate cause reason).self.phase = .closed := by
  rw [terminate_self]

theorem view_terminate (c : Ctx) (cause : CloseCause) (notifyPeer : Option CloseReason) :
    (c.terminate cause notifyPeer).view =
      ⟨c.self.timeless.ended, c.view.out ++ c.self.closing cause notifyPeer⟩ := by
  have hid : c.cancelAll.self.activeSessionId = c.self.activeSessionId := rfl
  rw [terminate.eq_def, Engine.closing.eq_def]
  dsimp only
  rw [hid]
  cases notifyPeer with
  | none =>
      dsimp only
      rw [view_update _ _ (by intro; rfl), view_push _ _ rfl, view_push _ _ rfl, view_cancelAll]
      simp [push, update, view, Engine.ended]
  | some reason =>
      dsimp only
      cases ClosePayload.encode { sessionId := c.self.activeSessionId, reason, detail := none } with
      | ok frame =>
          dsimp only
          rw [view_update _ _ (by intro; rfl), view_push _ _ rfl, view_push _ _ rfl,
            view_push _ _ rfl, view_cancelAll]
          simp [push, update, view, Engine.ended]
      | error _ =>
          dsimp only
          rw [view_update _ _ (by intro; rfl), view_push _ _ rfl, view_push _ _ rfl, view_cancelAll]
          simp [push, update, view, Engine.ended]

end Ctx

end Ruxmsg
