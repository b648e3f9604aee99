import Ruxmsg.Lanes
import Ruxmsg.Pinned

namespace Ruxmsg

variable [Ciborium] [Primitives]

omit [Ciborium] [Primitives] in
/-- A run in which the peer has answered or committed itself. -/
def Engine.Heard (e : Engine) : Prop := ∃ run, e.run = some run ∧ run.step ≠ .hello

/-- What is in flight to a side that stands in the session of its peer: what the
peer sent in the session before, and the rest. The former has all come in once
the side has heard of the next session. -/
inductive Inflow (e : Engine) (active : Session) (sender : DataSender) :
    List Frame → List (List UInt8) → Prop
  | fresh {frames contents} (awaits : active.receiver.Awaits sender frames contents) :
      Inflow e active sender frames contents
  | drains {drainee sender' old frames left contents} (unheard : ¬ e.Heard)
      (draining_eq : e.draining = some drainee)
      (id_ne : drainee.receiver.sessionId ≠ active.receiver.sessionId)
      (data : ∀ f ∈ old, f.messageType = .data) (leaves : drainee.receiver.Awaits sender' old left)
      (awaits : active.receiver.Awaits sender frames contents) :
      Inflow e active sender (old ++ frames) (left ++ contents)

/-- What is in flight to a side that has yet to enter the session of its peer,
up to the confirmation. -/
inductive Current (e : Engine) : List Frame → List (List UInt8) → Prop
  | first (active : e.active = none) : Current e [] []
  | next {active sender frames contents} (active_eq : e.active = some active)
      (data : ∀ f ∈ frames, f.messageType = .data)
      (awaits : active.receiver.Awaits sender frames contents) : Current e frames contents

/-- What is in flight to a side whose session its peer has yet to enter. -/
inductive Behind (e e' : Engine) (active' : Session) : List Frame → List (List UInt8) → Prop
  | first (active : e.active = none) : Behind e e' active' [] []
  | next {active drainee frames contents} (active_eq : e.active = some active)
      (draining_eq : e'.draining = some drainee)
      (id_ne : drainee.receiver.sessionId ≠ active'.receiver.sessionId)
      (data : ∀ f ∈ frames, f.messageType = .data)
      (awaits : drainee.receiver.Awaits active.sender frames contents) :
      Behind e e' active' frames contents

/-- An initiator that waits for the last confirmation, and a responder that has
sent it and stands in the new session. -/
inductive Between (e e' : Engine) : List Frame → List Frame → List (List UInt8) → List (List UInt8) → Prop
  | mk {run keys active' cur confirm rest toE' before after contents'} (run_eq : e.run = some run)
      (step : run.step = .confirmResp) (keys_eq : run.keys = some keys)
      (active_eq' : e'.active = some active') (id_eq : active'.id = keys.sessionId)
      (receiver_eq : active'.receiver = (keys.lane .initiator).receiver)
      (current : Current e cur before) (type : confirm.messageType ≠ .data)
      (awaits : (keys.lane .responder).receiver.Awaits active'.sender rest after)
      (behind : Behind e e' active' toE' contents') :
      Between e e' (cur ++ confirm :: rest) toE' (before ++ after) contents'

/-- Two sides and the frames in flight to each, with the contents of the DATA
among them. -/
inductive Paired (e e' : Engine) (toE toE' : List Frame) :
    List (List UInt8) → List (List UInt8) → Prop
  | apart (active : e.active = none) (active' : e'.active = none)
      (others : ∀ f ∈ toE, f.messageType ≠ .data) (others' : ∀ f ∈ toE', f.messageType ≠ .data) :
      Paired e e' toE toE' [] []
  | level {active active' contents contents'} (active_eq : e.active = some active)
      (active_eq' : e'.active = some active') (id_eq : active'.id = active.id)
      (inflow : Inflow e active active'.sender toE contents)
      (inflow' : Inflow e' active' active.sender toE' contents') : Paired e e' toE toE' contents contents'
  | behind {contents contents'} (between : Between e e' toE toE' contents contents') :
      Paired e e' toE toE' contents contents'
  | ahead {contents contents'} (between : Between e' e toE' toE contents' contents) :
      Paired e e' toE toE' contents contents'

theorem Paired.symm {e e' : Engine} {toE toE' : List Frame} {contents contents' : List (List UInt8)}
    (h : Paired e e' toE toE' contents contents') : Paired e' e toE' toE contents' contents := by
  cases h with
  | apart h h' hn hn' => exact .apart h' h hn' hn
  | level ha ha' hid hin hin' => exact .level ha' ha hid.symm hin' hin
  | behind h => exact .ahead h
  | ahead h => exact .behind h

section Flows

variable {e e₁ e' : Engine} {active : Session} {sender : DataSender} {frame : Frame}
  {frames sent : List Frame} {content : List UInt8} {contents : List (List UInt8)}

theorem Inflow.append_others (h : Inflow e active sender frames contents)
    (hothers : ∀ f ∈ sent, f.messageType ≠ .data) : Inflow e active sender (frames ++ sent) contents := by
  cases h with
  | fresh awaits => exact .fresh (awaits.append_others hothers)
  | drains unheard hd hne data leaves awaits =>
      rw [List.append_assoc]
      exact .drains unheard hd hne data leaves (awaits.append_others hothers)

theorem Inflow.send (rfc : Ciborium.Rfc8949) (correct : Primitives.Correct)
    (h : Inflow e active sender frames contents) (he : sender.encrypt content = (.ok frame, sender.next)) :
    Inflow e active sender.next (frames ++ [frame]) (contents ++ [content]) := by
  cases h with
  | fresh awaits => exact .fresh (awaits.send rfc correct he)
  | drains unheard hd hne data leaves awaits =>
      rw [List.append_assoc, List.append_assoc]
      exact .drains unheard hd hne data leaves (awaits.send rfc correct he)

theorem Inflow.of_nil (h : Inflow e active sender [] contents) : contents = [] := by
  generalize hframes : ([] : List Frame) = frames at h
  cases h with
  | fresh awaits =>
      subst hframes
      exact awaits.of_nil
  | drains unheard hd hne data leaves awaits =>
      obtain ⟨rfl, rfl⟩ := List.append_eq_nil_iff.1 hframes.symm
      rw [leaves.of_nil, awaits.of_nil]
      rfl

theorem Inflow.congr (h : Inflow e active sender frames contents) (hd : e₁.draining = e.draining)
    (hheard : e₁.Heard → e.Heard) : Inflow e₁ active sender frames contents := by
  cases h with
  | fresh awaits => exact .fresh awaits
  | drains unheard hd' hne data leaves awaits =>
      exact .drains (fun hh => unheard (hheard hh)) (hd.trans hd') hne data leaves awaits

/-- Behind a frame of a handshake nothing of the session before is left. -/
theorem Inflow.skip (h : Inflow e active sender (frame :: frames) contents)
    (ht : frame.messageType ≠ .data) : active.receiver.Awaits sender frames contents := by
  generalize hframes : frame :: frames = frames' at h
  cases h with
  | fresh awaits =>
      subst hframes
      exact awaits.skip ht
  | @drains drainee sender' old frames' left contents unheard hd hne data leaves awaits =>
      cases old with
      | nil =>
          rw [List.nil_append] at hframes
          subst hframes
          rw [leaves.of_nil]
          exact awaits.skip ht
      | cons f old =>
          obtain ⟨rfl, -⟩ := List.cons.inj hframes
          exact absurd (data frame List.mem_cons_self) ht

theorem Inflow.heard (h : Inflow e active sender frames contents) (hheard : e.Heard) :
    active.receiver.Awaits sender frames contents := by
  cases h with
  | fresh awaits => exact awaits
  | drains unheard => exact absurd hheard unheard

theorem Current.congr (h : Current e frames contents)
    (ha : e₁.active.map Session.receiver = e.active.map Session.receiver) :
    Current e₁ frames contents := by
  cases h with
  | first active =>
      rw [active] at ha
      exact .first (Option.map_eq_none_iff.1 ha)
  | next active_eq data awaits =>
      rw [active_eq] at ha
      obtain ⟨active₁, ha₁, hr⟩ := Option.map_eq_some_iff.1 ha
      exact .next ha₁ data (hr.symm ▸ awaits)

variable {e₁' : Engine} {active₁ : Session}

theorem Behind.congr (h : Behind e e' active frames contents) (ha : e₁.active = e.active)
    (hd : e₁'.draining = e'.draining) (hr : active₁.receiver = active.receiver) :
    Behind e₁ e₁' active₁ frames contents := by
  cases h with
  | first active => exact .first (ha.trans active)
  | next active_eq draining_eq id_ne data awaits =>
      exact .next (ha.trans active_eq) (hd.trans draining_eq) (hr.symm ▸ id_ne) data awaits

end Flows

/-- A change that leaves both sessions alone, and a run that waits for the last
confirmation, with what is sent meanwhile. -/
structure Engine.Calm (e e₁ : Engine) (sent : List Frame) : Prop where
  active_eq : e₁.active = e.active
  draining_eq : e₁.draining = e.draining
  others : ∀ f ∈ sent, f.messageType ≠ .data
  ending : ∀ run, e.run = some run → run.step = .confirmResp → e₁.run = some run ∧ sent = []
  heard : e₁.Heard → e.Heard ∨ e.active = none

/-- A DATA frame that one of the two receivers of an engine decrypts. -/
inductive Takes (e : Engine) (frame : Frame) (content : List UInt8) : Engine → Prop
  | active {active receiver} (active_eq : e.active = some active)
      (decrypted : active.receiver.decrypt frame = (.ok content, receiver)) :
      Takes e frame content { e with active := some { active with receiver } }
  | drained {active drainee receiver error} (active_eq : e.active = some active)
      (refused : active.receiver.decrypt frame = (.error error, active.receiver))
      (draining_eq : e.draining = some drainee)
      (decrypted : drainee.receiver.decrypt frame = (.ok content, receiver)) :
      Takes e frame content { e with draining := some { drainee with receiver } }

namespace Paired

variable {e e₁ e' : Engine} {toE toE' sent : List Frame} {frame reply : Frame} {content : List UInt8}
  {contents contents' : List (List UInt8)} {run run' : Run} {keys : SessionKeys} {peer : PeerIdentity}

theorem of_nil (h : Paired e e' [] toE' contents contents') : contents = [] := by
  generalize htoE : ([] : List Frame) = toE at h
  cases h with
  | apart => rfl
  | level _ _ _ inflow =>
      subst htoE
      exact inflow.of_nil
  | behind between =>
      cases between
      simp at htoE
  | ahead between =>
      cases between with
      | mk _ _ _ _ _ _ _ _ _ behind =>
          cases behind with
          | first => rfl
          | next _ _ _ _ awaits =>
              subst htoE
              exact awaits.of_nil

theorem calm (h : Paired e e' toE toE' contents contents') (hc : e.Calm e₁ sent) :
    Paired e₁ e' toE (toE' ++ sent) contents contents' := by
  cases h with
  | apart h h' hn hn' =>
      refine .apart (hc.active_eq.trans h) h' hn fun f hf => ?_
      obtain hf | hf := List.mem_append.1 hf
      · exact hn' f hf
      · exact hc.others f hf
  | level ha ha' hid hin hin' =>
      refine .level (hc.active_eq.trans ha) ha' hid (hin.congr hc.draining_eq fun hh => ?_)
        (hin'.append_others hc.others)
      exact (hc.heard hh).resolve_right (by simp [ha])
  | behind between =>
      cases between with
      | mk hrun hstep hkeys ha' hid hr current ht awaits behind =>
          obtain ⟨hrun₁, rfl⟩ := hc.ending _ hrun hstep
          rw [List.append_nil]
          exact .behind (.mk hrun₁ hstep hkeys ha' hid hr (current.congr (by rw [hc.active_eq])) ht awaits
            (behind.congr hc.active_eq rfl rfl))
  | ahead between =>
      cases between with
      | mk hrun hstep hkeys ha' hid hr current ht awaits behind =>
          rw [List.append_assoc, List.cons_append]
          exact .ahead (.mk hrun hstep hkeys (hc.active_eq.trans ha') hid hr current ht
            (awaits.append_others hc.others) (behind.congr rfl hc.draining_eq rfl))

theorem send (rfc : Ciborium.Rfc8949) (correct : Primitives.Correct)
    (h : Paired e e' toE toE' contents contents') {active : Session} (ha : e.active = some active)
    (he : active.sender.encrypt content = (.ok frame, active.sender.next)) :
    Paired { e with active := some { active with sender := active.sender.next } } e' toE
      (toE' ++ [frame]) contents (contents' ++ [content]) := by
  cases h with
  | apart h => cases ha.symm.trans h
  | level ha₁ ha' hid hin hin' =>
      obtain rfl := Option.some.inj (ha.symm.trans ha₁)
      refine .level rfl ha' hid ?_ (hin'.send rfc correct he)
      cases hin with
      | fresh awaits => exact .fresh awaits
      | drains unheard hd hne data leaves awaits => exact .drains unheard hd hne data leaves awaits
  | behind between =>
      cases between with
      | mk hrun hstep hkeys ha' hid hr current ht awaits behind =>
          refine .behind (.mk hrun hstep hkeys ha' hid hr (current.congr (by simp [ha])) ht awaits ?_)
          cases behind with
          | first hnone => cases ha.symm.trans hnone
          | next ha₁ hd hne data awaits =>
              obtain rfl := Option.some.inj (ha.symm.trans ha₁)
              refine .next rfl hd hne (fun f hf => ?_) (awaits.send rfc correct he)
              obtain hf | hf := List.mem_append.1 hf
              · exact data f hf
              · rw [List.mem_singleton.1 hf]
                exact DataSender.encrypt_type he
  | ahead between =>
      cases between with
      | mk hrun hstep hkeys ha' hid hr current ht awaits behind =>
          obtain rfl := Option.some.inj (ha.symm.trans ha')
          rw [List.append_assoc, List.cons_append, List.append_assoc]
          exact .ahead (.mk hrun hstep hkeys rfl hid hr current ht (awaits.send rfc correct he)
            (behind.congr rfl rfl rfl))

theorem take (h : Paired e e' (frame :: toE) toE' contents contents')
    (ht : frame.messageType = .data) : ∃ content rest e₁, contents = content :: rest ∧
      Takes e frame content e₁ ∧ Paired e₁ e' toE toE' rest contents' := by
  generalize htoE : frame :: toE = frames at h
  cases h with
  | apart _ _ hn => exact absurd ht (hn frame (htoE ▸ List.mem_cons_self))
  | @level active active' _ _ ha ha' hid hin hin' =>
      have hactive {frames : List Frame} {contents : List (List UInt8)}
          (awaits : active.receiver.Awaits active'.sender (frame :: frames) contents) :
          ∃ content rest e₁, contents = content :: rest ∧ Takes e frame content e₁ ∧
            Paired e₁ e' frames toE' rest contents' := by
        obtain ⟨content, rest, receiver, rfl, hd, hawaits, -⟩ := awaits.take ht
        exact ⟨content, rest, _, rfl, .active ha hd, .level rfl ha' hid (.fresh hawaits) hin'⟩
      cases hin with
      | fresh awaits =>
          subst htoE
          exact hactive awaits
      | @drains drainee sender' old frames left contents unheard hd hne data leaves awaits =>
          cases old with
          | nil =>
              rw [List.nil_append] at htoE
              subst htoE
              obtain rfl := leaves.of_nil
              exact hactive awaits
          | cons f old =>
              obtain ⟨rfl, rfl⟩ := List.cons.inj htoE
              obtain ⟨content, rest, receiver, rfl, hdec, hleaves, hs⟩ := leaves.take ht
              obtain ⟨error, href⟩ := leaves.refused ht hne
              refine ⟨content, rest ++ contents, _, rfl, .drained ha href hd hdec, ?_⟩
              refine .level ha ha' hid (.drains unheard rfl ?_ ?_ hleaves awaits) hin'
              · rw [hs]
                exact hne
              · exact fun f hf => data f (List.mem_cons_of_mem _ hf)
  | behind between =>
      cases between with
      | @mk run keys active' cur confirm rest _ before after _ hrun hstep hkeys ha' hid hr current htype
          awaits behind =>
          cases current with
          | first =>
              obtain ⟨rfl, -⟩ := List.cons.inj htoE
              exact absurd ht htype
          | @next active sender _ _ ha data current =>
              cases cur with
              | nil =>
                  obtain ⟨rfl, -⟩ := List.cons.inj htoE
                  exact absurd ht htype
              | cons f cur =>
                  obtain ⟨rfl, rfl⟩ := List.cons.inj htoE
                  obtain ⟨content, rest, receiver, rfl, hdec, hcurrent, -⟩ := current.take ht
                  refine ⟨content, rest ++ after, _, rfl, .active ha hdec, ?_⟩
                  refine .behind (.mk hrun hstep hkeys ha' hid hr (.next rfl ?_ hcurrent) htype awaits ?_)
                  · exact fun f hf => data f (List.mem_cons_of_mem _ hf)
                  · cases behind with
                    | first hnone => cases ha.symm.trans hnone
                    | next ha₁ hd hne hall hbehind =>
                        obtain rfl := Option.some.inj (ha.symm.trans ha₁)
                        exact .next rfl hd hne hall hbehind
  | ahead between =>
      cases between with
      | mk hrun hstep hkeys ha hid hr current htype awaits behind =>
          cases behind with
          | first => cases htoE
          | next ha' hd hne data hbehind =>
              subst htoE
              obtain ⟨content, rest, receiver, rfl, hdec, hbehind', hs⟩ := hbehind.take ht
              obtain ⟨error, href⟩ := hbehind.refused ht hne
              refine ⟨content, rest, _, rfl, .drained ha href hd hdec, ?_⟩
              refine .ahead (.mk hrun hstep hkeys ha hid hr current htype awaits
                (.next ha' rfl ?_ ?_ hbehind'))
              · rw [hs]
                exact hne
              · exact fun f hf => data f (List.mem_cons_of_mem _ hf)

theorem skip (h : Paired e e' (frame :: toE) toE' contents contents') (ht : frame.messageType ≠ .data)
    (hstep : ∀ run, e.run = some run → run.step ≠ .confirmResp) (ha₁ : e₁.active = e.active)
    (hsent : ∀ f ∈ sent, f.messageType ≠ .data) :
    Paired e₁ e' toE (toE' ++ sent) contents contents' := by
  generalize htoE : frame :: toE = frames at h
  cases h with
  | apart h h' hn hn' =>
      subst htoE
      refine .apart (ha₁.trans h) h' (fun f hf => hn f (List.mem_cons_of_mem _ hf)) fun f hf => ?_
      obtain hf | hf := List.mem_append.1 hf
      · exact hn' f hf
      · exact hsent f hf
  | level ha ha' hid hin hin' =>
      subst htoE
      exact .level (ha₁.trans ha) ha' hid (.fresh (hin.skip ht)) (hin'.append_others hsent)
  | behind between =>
      cases between with
      | mk hrun hconfirm => exact absurd hconfirm (hstep _ hrun)
  | ahead between =>
      cases between with
      | mk _ _ _ _ _ _ _ _ _ behind =>
          cases behind with
          | first => cases htoE
          | next _ _ _ data => exact absurd (data frame (htoE ▸ List.mem_cons_self)) ht

/-- The responder completes: what is in flight between the two is of the
session that it leaves behind. -/
theorem confirm (h : Paired e e' toE (frame :: toE') contents contents')
    (ht : frame.messageType ≠ .data) (hpinned : e.Pinned) (hrun : e.run = some run)
    (hstep : run.step = .confirmResp) (hkeys : run.keys = some keys) (hrun' : e'.run = some run')
    (hstep' : run'.step = .confirmInit) (hid : e'.activeSessionId = e.activeSessionId)
    (hfresh : e.activeSessionId ≠ some keys.sessionId) (hdata : ∀ f ∈ toE, f.messageType = .data)
    (hdata' : ∀ f ∈ toE', f.messageType = .data) (hreply : reply.messageType ≠ .data)
    (ha₁ : e₁.active = some (Session.new keys .responder peer)) (hd₁ : e₁.draining = e'.active) :
    Paired e e₁ (toE ++ [reply]) toE' contents contents' := by
  have hnew : (keys.lane .responder).receiver.Awaits (Session.new keys .responder peer).sender [] [] :=
    (keys.lane .responder).awaits_new
  generalize htoE' : frame :: toE' = frames at h
  cases h with
  | apart h h' hn hn' =>
      have hnil {frames : List Frame} (hd : ∀ f ∈ frames, f.messageType = .data)
          (hn : ∀ f ∈ frames, f.messageType ≠ .data) : frames = [] :=
        List.eq_nil_iff_forall_not_mem.2 fun f hf => hn f hf (hd f hf)
      subst htoE'
      obtain rfl := hnil hdata hn
      obtain rfl := hnil hdata' fun f hf => hn' f (List.mem_cons_of_mem _ hf)
      exact .behind (.mk hrun hstep hkeys ha₁ rfl rfl (.first h) hreply hnew (.first h))
  | @level active active' _ _ ha ha' hids hin hin' =>
      subst htoE'
      have hleaves := hin'.skip ht
      have hne : active'.receiver.sessionId ≠ (Session.new keys .responder peer).receiver.sessionId := by
        rw [hleaves.sessionId_eq, hpinned.sender_id active ha]
        intro heq
        apply hfresh
        rw [Engine.activeSessionId, ha, Option.map_some, heq]
        rfl
      have hb : Between e e₁ (toE ++ [reply]) toE' (contents ++ []) contents' :=
        .mk hrun hstep hkeys ha₁ rfl rfl
          (.next ha hdata (hin.heard ⟨run, hrun, by simp [hstep]⟩)) hreply hnew
          (.next ha (hd₁.trans ha') hne hdata' hleaves)
      rw [List.append_nil] at hb
      exact .behind hb
  | behind between =>
      cases between with
      | mk hrun₂ _ hkeys₂ ha' hid' =>
          obtain rfl := Option.some.inj (hrun.symm.trans hrun₂)
          obtain rfl := Option.some.inj (hkeys.symm.trans hkeys₂)
          refine absurd (hid.symm.trans ?_) hfresh
          rw [Engine.activeSessionId, ha', Option.map_some, hid']
  | ahead between =>
      cases between with
      | mk hrun₂ hstep₂ =>
          obtain rfl := Option.some.inj (hrun'.symm.trans hrun₂)
          cases hstep'.symm.trans hstep₂

theorem finish (h : Paired e e' (frame :: toE) toE' contents contents')
    (ht : frame.messageType ≠ .data) (hrun : e.run = some run) (hkeys : run.keys = some keys)
    (hid' : e'.activeSessionId = some keys.sessionId) (hfresh : e.activeSessionId ≠ some keys.sessionId)
    (hidle : ¬ e'.Heard) (ha₁ : e₁.active = some (Session.new keys .initiator peer)) :
    Paired e₁ e' toE toE' contents contents' := by
  generalize htoE : frame :: toE = frames at h
  cases h with
  | apart _ h' =>
      rw [Engine.activeSessionId, h'] at hid'
      cases hid'
  | level ha ha' hids =>
      refine absurd ?_ hfresh
      rw [← hid', Engine.activeSessionId, Engine.activeSessionId, ha, ha', Option.map_some,
        Option.map_some, hids]
  | behind between =>
      cases between with
      | @mk run₂ keys₂ active' cur confirm rest _ before after _ hrun₂ hstep₂ hkeys₂ ha' hids hr current
          htype awaits behind =>
          obtain rfl := Option.some.inj (hrun.symm.trans hrun₂)
          obtain rfl := Option.some.inj (hkeys.symm.trans hkeys₂)
          obtain ⟨rfl, rfl⟩ : cur = [] ∧ before = [] := by
            cases current with
            | first => exact ⟨rfl, rfl⟩
            | next _ data current =>
                cases cur with
                | nil => exact ⟨rfl, current.of_nil⟩
                | cons f cur =>
                    obtain ⟨rfl, -⟩ := List.cons.inj htoE
                    exact absurd (data frame List.mem_cons_self) ht
          obtain ⟨rfl, rfl⟩ := List.cons.inj htoE
          have hnew : active'.receiver.Awaits (Session.new keys .initiator peer).sender [] [] := by
            rw [hr]
            exact (keys.lane .initiator).awaits_new
          refine .level ha₁ ha' hids (.fresh awaits) ?_
          cases behind with
          | first => exact .fresh hnew
          | next ha hd hne data hbehind =>
              have hin : Inflow e' active' (Session.new keys .initiator peer).sender (toE' ++ [])
                  (contents' ++ []) := .drains hidle hd hne data hbehind hnew
              rwa [List.append_nil, List.append_nil] at hin
  | ahead between =>
      cases between with
      | mk hrun₂ hstep₂ => exact absurd ⟨_, hrun₂, by simp [hstep₂]⟩ hidle

end Paired

end Ruxmsg
