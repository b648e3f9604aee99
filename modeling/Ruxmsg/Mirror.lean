import Ruxmsg.Authentication
import Ruxmsg.Reference

namespace Ruxmsg

open Library.Machine

section Sessions

theorem HelloRole.eq_other {a b : HelloRole} (h : a ≠ b) : b = a.other := by
  cases a <;> cases b <;> first | rfl | exact absurd rfl h

/-- One side's sender and the other's receiver, in both directions. -/
structure Session.Mirrors (s s' : Session) : Prop where
  id : s'.id = s.id
  receiver : s'.receiver = DataReceiver.new s.sender.sessionId s.sender.direction s.sender.chainKey
  sender : s.receiver = DataReceiver.new s'.sender.sessionId s'.sender.direction s'.sender.chainKey
  counters : s.sender.counter = 0 ∧ s'.sender.counter = 0

theorem Session.new_mirrors (keys : SessionKeys) (role : HelloRole) (peer peer' : PeerIdentity) :
    (Session.new keys role peer).Mirrors (Session.new keys role.other peer') := by
  cases role <;> exact ⟨rfl, rfl, rfl, rfl, rfl⟩

end Sessions

variable [Ciborium] [Primitives]

def heldEncodings (calls : List Call) : Set (List UInt8) :=
  {encoded | ∃ call ∈ calls, ∃ run transcript, call.pre.run = some run ∧
    run.transcript = some transcript ∧ transcript.encode = .ok encoded}

omit [Ciborium] [Primitives] in
def heldSecrets (calls : List Call) : Set (Bytes 32 × Bytes 32) :=
  {pair | ∃ call ∈ calls, ∃ run, call.pre.run = some run ∧ run.shared = some pair.1 ∧
    run.hash = some pair.2}

theorem Authenticates.held {identity : IdentityKeypair} {calls : List Call} {s : Session} {o : Origin}
    (h : Authenticates identity calls s o) :
    o.encoded ∈ heldEncodings calls ∧ (o.shared, o.hash) ∈ heldSecrets calls := by
  obtain ⟨before, call, after, run, rfl, hrun, ho, -⟩ := h.made
  have hmem : call ∈ before ++ call :: after := by simp
  exact ⟨⟨call, hmem, run, _, hrun, ho.transcript, h.encoded⟩,
    call, hmem, run, hrun, ho.shared, ho.hash⟩

theorem Authenticates.suite {identity : IdentityKeypair} {calls : List Call} {s : Session} {o : Origin}
    (h : Authenticates identity calls s o) : o.transcript.cipherSuite = 1 := by
  obtain ⟨-, -, -, -, -, hsuite⟩ := transcriptOf_eq_ok h.transcript_eq
  obtain ⟨_, -, _, he, -⟩ := h.own_sent
  exact hsuite.trans (HelloPayload.encode_eq_ok.1 he).1

/-- Sessions of one id come from one transcript and one shared secret, as long
as neither hash nor key schedule has collided on what the engines held. -/
theorem Authenticates.agree (rfc : Ciborium.Rfc8949) {identity identity' : IdentityKeypair}
    {calls calls' : List Call} {s s' : Session} {o o' : Origin}
    (hhash : Set.InjOn transcriptHash (heldEncodings calls ∪ heldEncodings calls'))
    (hids : Set.InjOn (fun pair => (deriveSessionKeys pair.1 pair.2).sessionId)
      (heldSecrets calls ∪ heldSecrets calls'))
    (h : Authenticates identity calls s o) (h' : Authenticates identity' calls' s' o')
    (hid : s.id = s'.id) : o.transcript = o'.transcript ∧ o.keys = o'.keys := by
  have hsecrets : (o.shared, o.hash) = (o'.shared, o'.hash) :=
    hids (.inl h.held.2) (.inr h'.held.2) (h.id_eq.symm.trans (hid.trans h'.id_eq))
  obtain ⟨hshared, hhash'⟩ := Prod.mk.inj hsecrets
  have hencoded : o.encoded = o'.encoded := hhash (.inl h.held.1) (.inr h'.held.1) hhash'
  refine ⟨Transcript.encode_injective rfc (h.suite.trans h'.suite.symm) h.encoded ?_, ?_⟩
  · rw [hencoded]
    exact h'.encoded
  · rw [Origin.keys, Origin.keys, hshared, hhash']

/-- Equal session ids mean mirrored sessions: opposite roles, each other's
identity, one transcript, and directional keys the other way round. -/
theorem equal_ids_mirror (rfc : Ciborium.Rfc8949) (role role' : HelloRole)
    (identity identity' : IdentityKeypair) (entropy entropy' : Entropy) (limit limit' : Nat)
    (inputs inputs' : List Input) (distinct : identity.identity ≠ identity'.identity) :
    let start := Engine.configured role identity entropy limit
    let start' := Engine.configured role' identity' entropy' limit'
    let calls : List Call := trace Engine.handle start inputs
    let calls' : List Call := trace Engine.handle start' inputs'
    Set.InjOn transcriptHash (heldEncodings calls ∪ heldEncodings calls') →
    Set.InjOn (fun pair => (deriveSessionKeys pair.1 pair.2).sessionId)
      (heldSecrets calls ∪ heldSecrets calls') →
    ∀ s s', (final Engine.handle start inputs).active = some s →
      (final Engine.handle start' inputs').active = some s' → s.id = s'.id →
      ∃ o o', Authenticates identity calls s o ∧ Authenticates identity' calls' s' o' ∧
        o'.role = o.role.other ∧ s.peer = identity'.identity ∧ s'.peer = identity.identity ∧
        o.transcript = o'.transcript ∧
        (Session.new o.keys o.role s.peer).Mirrors (Session.new o'.keys o'.role s'.peer) := by
  intro start start' calls calls' hhash hids s s' hs hs' hid
  obtain ⟨o, h⟩ := reachable_authenticates role identity entropy limit inputs hs
  obtain ⟨o', h'⟩ := reachable_authenticates role' identity' entropy' limit' inputs' hs'
  obtain ⟨ht, hkeys⟩ := h.agree rfc hhash hids h' hid
  have hother : o'.role = o.role.other := by
    refine HelloRole.eq_other ?_
    intro heq
    refine distinct ?_
    rw [← h.local_side, ← h'.local_side, ht, heq]
  have hback : o'.role.other = o.role := by
    rw [hother, HelloRole.other_other]
  refine ⟨o, o', h, h', hother, ?_, ?_, ht, ?_⟩
  · rw [← h.peer_side, ← h'.local_side, ht, hother]
  · rw [← h'.peer_side, ← h.local_side, ht, hback]
  · rw [hother, ← hkeys]
    exact Session.new_mirrors ..

end Ruxmsg

namespace Ruxmsg

open Library.Machine Sample

theorem heldEncodings_union (calls calls' : List Call) :
    heldEncodings calls ∪ heldEncodings calls' ⊆ heldEncodings (calls ++ calls') := by
  rintro _ (⟨call, hcall, h⟩ | ⟨call, hcall, h⟩)
  · exact ⟨call, List.mem_append_left _ hcall, h⟩
  · exact ⟨call, List.mem_append_right _ hcall, h⟩

theorem heldSecrets_union (calls calls' : List Call) :
    heldSecrets calls ∪ heldSecrets calls' ⊆ heldSecrets (calls ++ calls') := by
  rintro _ (⟨call, hcall, h⟩ | ⟨call, hcall, h⟩)
  · exact ⟨call, List.mem_append_left _ hcall, h⟩
  · exact ⟨call, List.mem_append_right _ hcall, h⟩

/-- The runs of a list of calls hold nothing but one transcript and its secrets. -/
theorem held_subsingleton {calls : List Call} (transcript : Option Transcript)
    (shared hash : Option (Bytes 32))
    (h : ∀ call ∈ calls, ∀ run, call.pre.run = some run →
      (∀ t, run.transcript = some t → transcript = some t) ∧
        (∀ s, run.shared = some s → shared = some s) ∧ ∀ s, run.hash = some s → hash = some s) :
    (heldEncodings calls).Subsingleton ∧ (heldSecrets calls).Subsingleton := by
  refine ⟨?_, ?_⟩
  · rintro _ ⟨call, hcall, run, t, hrun, ht, he⟩ _ ⟨call', hcall', run', t', hrun', ht', he'⟩
    have hsame := ((h call hcall run hrun).1 t ht).symm.trans ((h call' hcall' run' hrun').1 t' ht')
    obtain rfl := Option.some.inj hsame
    exact Except.ok.inj (he.symm.trans he')
  · rintro ⟨s, d⟩ ⟨call, hcall, run, hrun, hs, hd⟩ ⟨s', d'⟩ ⟨call', hcall', run', hrun', hs', hd'⟩
    have h₁ := (h call hcall run hrun).2
    have h₂ := (h call' hcall' run' hrun').2
    exact Prod.ext (Option.some.inj ((h₁.1 s hs).symm.trans (h₂.1 s' hs')))
      (Option.some.inj ((h₁.2 d hd).symm.trans (h₂.2 d' hd')))

/-- The two sides of an honest handshake. -/
theorem equal_ids_mirror_sample :
    ∃ s s', ∃ o o' : Origin, (final Engine.handle dialer handshake.leftInputs).active = some s ∧
      (final Engine.handle answerer handshake.rightInputs).active = some s' ∧
      (Session.new o.keys o.role s.peer).Mirrors (Session.new o'.keys o'.role s'.peer) := by
  have hf : (final Engine.handle dialer handshake.leftInputs).Fits :=
    reachable_fits .initiator leftIdentity (entropy 100) rekeyMessageLimit _
  have hf' : (final Engine.handle answerer handshake.rightInputs).Fits :=
    reachable_fits .responder rightIdentity (entropy 200) rekeyMessageLimit _
  obtain ⟨s, hs⟩ := Option.isSome_iff_exists.1 (hf.active_iff.2 handshake_established.1)
  obtain ⟨s', hs'⟩ := Option.isSome_iff_exists.1 (hf'.active_iff.2 handshake_established.2)
  have hids : (final Engine.handle dialer handshake.leftInputs).activeSessionId =
      (final Engine.handle answerer handshake.rightInputs).activeSessionId := by
    decide +kernel
  have hid : s.id = s'.id := by
    rw [Engine.activeSessionId, Engine.activeSessionId, hs, hs'] at hids
    exact Option.some.inj hids
  let calls : List Call :=
    trace Engine.handle dialer handshake.leftInputs ++ trace Engine.handle answerer handshake.rightInputs
  let asked := (final Engine.handle dialer (handshake.leftInputs.take 2)).run
  have hall : (calls.all fun call => call.pre.run.all fun run =>
      run.transcript.all (asked.bind Run.transcript = some ·) &&
        run.shared.all (asked.bind Run.shared = some ·) &&
        run.hash.all (asked.bind Run.hash = some ·)) = true := by
    decide +kernel
  have hheld : (heldEncodings calls).Subsingleton ∧ (heldSecrets calls).Subsingleton := by
    refine held_subsingleton (asked.bind Run.transcript) (asked.bind Run.shared) (asked.bind Run.hash)
      fun call hcall run hrun => ?_
    have h := List.all_eq_true.1 hall call hcall
    rw [hrun, Option.all_some, Bool.and_eq_true, Bool.and_eq_true] at h
    obtain ⟨⟨ht, hsh⟩, hh⟩ := h
    refine ⟨?_, ?_, ?_⟩
    · intro t h
      exact of_decide_eq_true ((Option.all_eq_true _ _).1 ht t h)
    · intro d h
      exact of_decide_eq_true ((Option.all_eq_true _ _).1 hsh d h)
    · intro d h
      exact of_decide_eq_true ((Option.all_eq_true _ _).1 hh d h)
  obtain ⟨o, o', -, -, -, -, -, -, hmirrors⟩ := equal_ids_mirror Ciborium.reference_rfc8949 .initiator
    .responder leftIdentity rightIdentity (entropy 100) (entropy 200) rekeyMessageLimit
    rekeyMessageLimit handshake.leftInputs handshake.rightInputs (by decide +kernel)
    ((hheld.1.anti (heldEncodings_union _ _)).injOn _)
    ((hheld.2.anti (heldSecrets_union _ _)).injOn _) s s' hs hs' hid
  exact ⟨s, s', o, o', hs, hs', hmirrors⟩

end Ruxmsg
