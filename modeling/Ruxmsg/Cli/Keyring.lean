import Ruxmsg.Storage
import Ruxmsg.Library.History
import Ruxmsg.Cli.App

namespace Ruxmsg.Cli

open Library.Machine

inductive KeyringError
  | noEntry (text : String)
  | other (text : String)
  deriving DecidableEq

def KeyringError.text : KeyringError → String
  | .noEntry text | .other text => text

/-- The credential store by service and account. An entry that cannot be made
is a call that fails. -/
class Keyring (κ : Type) where
  /-- Whether the platform has a native backend. -/
  native : Bool
  getSecret : κ → Text → String → Except KeyringError (List UInt8) × κ
  setSecret : κ → Text → String → List UInt8 → Except KeyringError Unit × κ

structure KeyringSecretStore (κ : Type) where
  service : Text
  keyring : κ

variable {κ : Type} [Keyring κ]

namespace KeyringSecretStore

def ensurePersistent (_self : KeyringSecretStore κ) : Except StorageError Unit :=
  if Keyring.native κ then .ok ()
  else .error ⟨"no verified persistent native credential-store backend for this platform"⟩

def getSecret (self : KeyringSecretStore κ) (account : String) :
    Except StorageError (Option (List UInt8)) × KeyringSecretStore κ :=
  match Keyring.getSecret self.keyring self.service account with
  | (.ok bytes, keyring) => (.ok (some bytes), { self with keyring })
  | (.error (.noEntry _), keyring) => (.ok none, { self with keyring })
  | (.error (.other text), keyring) => (.error ⟨text⟩, { self with keyring })

def setSecret (self : KeyringSecretStore κ) (account : String) (value : List UInt8) :
    Except StorageError Unit × KeyringSecretStore κ :=
  match Keyring.setSecret self.keyring self.service account value with
  | (.ok (), keyring) => (.ok (), { self with keyring })
  | (.error error, keyring) => (.error ⟨error.text⟩, { self with keyring })

end KeyringSecretStore

instance : SecretStore (KeyringSecretStore κ) where
  ensurePersistent self := (self.ensurePersistent, self)
  getSecret := KeyringSecretStore.getSecret
  setSecret := KeyringSecretStore.setSecret

def profileStore (keyring : κ) (name : Text) : IdentityKeyStore (KeyringSecretStore κ) :=
  { secrets := { service := "ruxmsg-".toList ++ name, keyring }, account := "identity" }

def storageText (error : StorageError) : Text := "storage operation failed: ".toList ++ error.text.toList

/-- `load_identity` down to the keyring, by the keypair it would generate. -/
def loadIdentityFrom (keyring : κ) (name : Text) (create : Bool) (generated : IdentityKeypair) :
    Except Text IdentityKeypair × κ :=
  match validateProfileName name with
  | .error error => (.error error, keyring)
  | .ok () =>
      match (profileStore keyring name).load with
      | (.error error, store) => (.error (storageText error), store.secrets.keyring)
      | (.ok (some identity), store) =>
          if create then
            (.error ("profile '".toList ++ name ++ "' already exists".toList), store.secrets.keyring)
          else (.ok identity, store.secrets.keyring)
      | (.ok none, store) =>
          if create then
            match store.save generated with
            | (.error error, store) => (.error (storageText error), store.secrets.keyring)
            | (.ok (), store) => (.ok generated, store.secrets.keyring)
          else (.error ("profile '".toList ++ name ++ "' does not exist".toList), store.secrets.keyring)

/-- What the client takes from the keyring is what the keyring's own run gives. -/
theorem loadIdentity_eq [Primitives] (keyring : κ) (name : Text) (create : Bool) (generated : IdentityKeypair)
    (replies : Replies) (hgenerated : replies.generated = generated.identity)
    (hloaded : replies.loaded = ((profileStore keyring name).load.1.map (·.map (·.identity))).mapError storageText)
    (hsaved : replies.saved = ((profileStore keyring name).load.2.save generated).1.mapError storageText) :
    loadIdentity replies name create = (loadIdentityFrom keyring name create generated).1.map (·.identity) := by
  rw [loadIdentity, loadIdentityFrom, hloaded, hsaved, hgenerated]
  cases validateProfileName name with
  | error error => rfl
  | ok =>
      dsimp only
      cases (profileStore keyring name).load with
      | mk found store =>
          cases found with
          | error error => rfl
          | ok found =>
              cases found with
              | some identity => cases create <;> rfl
              | none =>
                  cases create with
                  | false => rfl
                  | true =>
                      dsimp only
                      cases store.save generated with
                      | mk saved store => cases saved <;> rfl

abbrev Holdings := Text → String → Option (List UInt8)

def Holdings.write (holdings : Holdings) (service : Text) (account : String) (value : List UInt8) : Holdings :=
  Function.update holdings service (Function.update (holdings service) account (some value))

/-- A keyring that answers with what it holds, when it answers. A write may fail
after it was made, and may be dropped without a word. -/
structure Keyring.Honest (contents : κ → Holdings) : Prop where
  get : ∀ keyring service account, contents (getSecret keyring service account).2 = contents keyring
  found : ∀ keyring service account bytes, (getSecret keyring service account).1 = .ok bytes →
    contents keyring service account = some bytes
  missing : ∀ keyring service account text, (getSecret keyring service account).1 = .error (.noEntry text) →
    contents keyring service account = none
  set : ∀ keyring service account value, contents (setSecret keyring service account value).2 = contents keyring ∨
    contents (setSecret keyring service account value).2 = (contents keyring).write service account value

section Holding

variable {contents : κ → Holdings}

theorem KeyringSecretStore.getSecret_holds (h : Keyring.Honest contents) (self : KeyringSecretStore κ)
    (account : String) : contents (self.getSecret account).2.keyring = contents self.keyring ∧
      (self.getSecret account).2.service = self.service ∧
      ∀ value, (self.getSecret account).1 = .ok value → value = contents self.keyring self.service account := by
  have hget := h.get self.keyring self.service account
  have hfound := h.found self.keyring self.service account
  have hmissing := h.missing self.keyring self.service account
  rw [getSecret]
  cases hanswer : Keyring.getSecret self.keyring self.service account with
  | mk answer keyring =>
      rw [hanswer] at hget hfound hmissing
      rcases answer with (text | text) | bytes
      · refine ⟨hget, rfl, ?_⟩
        rintro _ ⟨⟩
        exact (hmissing text rfl).symm
      · exact ⟨hget, rfl, nofun⟩
      · refine ⟨hget, rfl, ?_⟩
        rintro _ ⟨⟩
        exact (hfound bytes rfl).symm

theorem KeyringSecretStore.setSecret_holds (h : Keyring.Honest contents) (self : KeyringSecretStore κ)
    (account : String) (value : List UInt8) : (self.setSecret account value).2.service = self.service ∧
      (contents (self.setSecret account value).2.keyring = contents self.keyring ∨
        contents (self.setSecret account value).2.keyring =
          (contents self.keyring).write self.service account value) := by
  have hset := h.set self.keyring self.service account value
  rw [setSecret]
  cases hanswer : Keyring.setSecret self.keyring self.service account value with
  | mk answer keyring =>
      rw [hanswer] at hset
      cases answer with
      | error error => exact ⟨rfl, hset⟩
      | ok => exact ⟨rfl, hset⟩

theorem write_same (holdings : Holdings) (service : Text) (account : String) (value : List UInt8) :
    holdings.write service account value service = Function.update (holdings service) account (some value) :=
  Function.update_self ..

theorem write_other {service service' : Text} (hne : service' ≠ service) (holdings : Holdings) (account : String)
    (value : List UInt8) : holdings.write service account value service' = holdings service' :=
  Function.update_of_ne hne ..

theorem Keyring.Honest.store (h : Keyring.Honest contents) :
    SecretStore.Honest fun secrets : KeyringSecretStore κ => contents secrets.keyring secrets.service where
  ensure _ := rfl
  get secrets account := by
    obtain ⟨hcontents, hservice, -⟩ := secrets.getSecret_holds h account
    change contents (secrets.getSecret account).2.keyring (secrets.getSecret account).2.service = _
    rw [hcontents, hservice]
  read secrets account := (secrets.getSecret_holds h account).2.2
  set secrets account value := by
    obtain ⟨hservice, hcontents⟩ := secrets.setSecret_holds h account value
    change contents (secrets.setSecret account value).2.keyring (secrets.setSecret account value).2.service = _ ∨
      contents (secrets.setSecret account value).2.keyring (secrets.setSecret account value).2.service = _
    rw [hservice]
    rcases hcontents with hcontents | hcontents
    · exact .inl (by rw [hcontents])
    · exact .inr (by rw [hcontents, write_same])

theorem Keyring.Honest.others (h : Keyring.Honest contents) (service : Text) (holdings : Holdings) :
    SecretStore.Keeps fun secrets : KeyringSecretStore κ => secrets.service = service ∧
      ∀ service', service' ≠ service → contents secrets.keyring service' = holdings service' where
  ensure _ hkeeps := hkeeps
  get secrets account hkeeps := by
    obtain ⟨hcontents, hservice, -⟩ := secrets.getSecret_holds h account
    refine ⟨hservice.trans hkeeps.1, ?_⟩
    change ∀ service', _ → contents (secrets.getSecret account).2.keyring service' = _
    rw [hcontents]
    exact hkeeps.2
  set secrets account value hkeeps := by
    obtain ⟨hservice, hcontents⟩ := secrets.setSecret_holds h account value
    refine ⟨hservice.trans hkeeps.1, ?_⟩
    intro service' hne
    change contents (secrets.setSecret account value).2.keyring service' = _
    rcases hcontents with hcontents | hcontents
    · rw [hcontents]
      exact hkeeps.2 service' hne
    · rw [hcontents, hkeeps.1, write_other hne]
      exact hkeeps.2 service' hne

variable (store : IdentityKeyStore (KeyringSecretStore κ))

theorem load_holdings (h : Keyring.Honest contents) :
    store.load.2.secrets.service = store.secrets.service ∧
      contents store.load.2.secrets.keyring = contents store.secrets.keyring := by
  have hreads := IdentityKeyStore.load_reads h.store store
  obtain ⟨hservice, hothers⟩ := IdentityKeyStore.load_keeps
    (h.others store.secrets.service (contents store.secrets.keyring)) store ⟨rfl, fun _ _ => rfl⟩
  refine ⟨hservice, ?_⟩
  funext service
  by_cases hne : service = store.secrets.service
  · have hcontents := hreads.same
    rw [hne, ← hcontents, hservice]
  · exact hothers service hne

theorem save_holdings (h : Keyring.Honest contents) (identity : IdentityKeypair) :
    contents (store.save identity).2.secrets.keyring = contents store.secrets.keyring ∨
      contents (store.save identity).2.secrets.keyring =
        (contents store.secrets.keyring).write store.secrets.service store.account identity.secret.val := by
  have hwrites := IdentityKeyStore.save_writes h.store store identity
  obtain ⟨hservice, hothers⟩ := IdentityKeyStore.save_keeps
    (h.others store.secrets.service (contents store.secrets.keyring)) store ⟨rfl, fun _ _ => rfl⟩ identity
  have hcontents := hwrites.writes
  rw [hservice] at hcontents
  refine hcontents.imp ?_ ?_
  · intro hcontents
    funext service
    by_cases hne : service = store.secrets.service
    · rw [hne]
      exact hcontents
    · exact hothers service hne
  · intro hcontents
    funext service
    by_cases hne : service = store.secrets.service
    · rw [hne, hcontents, write_same]
    · rw [hothers service hne, write_other hne]

end Holding

structure ProfileRequest where
  name : Text
  create : Bool
  generated : IdentityKeypair

namespace ProfileRequest

def service (request : ProfileRequest) : Text := "ruxmsg-".toList ++ request.name

def step (keyring : κ) (request : ProfileRequest) : κ × Except Text IdentityKeypair :=
  let (result, keyring) := loadIdentityFrom keyring request.name request.create request.generated
  (keyring, result)

variable {contents : κ → Holdings}

/-- What one command does to the keyring: nothing, or the seed of a profile
that had none is written. -/
structure Serves (contents : κ → Holdings) (keyring after : κ) (request : ProfileRequest)
    (result : Except Text IdentityKeypair) : Prop where
  holdings : contents after = contents keyring ∨ request.create = true ∧
    contents keyring request.service "identity" = none ∧
    contents after = (contents keyring).write request.service "identity" request.generated.secret.val
  given : ∀ identity, result = .ok identity →
    contents after request.service "identity" = some identity.secret.val
  created : request.create = true → ∀ identity, result = .ok identity →
    identity = request.generated ∧ contents keyring request.service "identity" = none

/-- Saving the identity of a profile whose store was only read so far. -/
theorem save_holds (h : Keyring.Honest contents) {keyring : κ} {request : ProfileRequest}
    {store : IdentityKeyStore (KeyringSecretStore κ)} (hservice : store.secrets.service = request.service)
    (haccount : store.account = "identity") (hloaded : contents store.secrets.keyring = contents keyring) :
    (contents (store.save request.generated).2.secrets.keyring = contents keyring ∨
      contents (store.save request.generated).2.secrets.keyring =
        (contents keyring).write request.service "identity" request.generated.secret.val) ∧
    ((store.save request.generated).1 = .ok () →
      contents (store.save request.generated).2.secrets.keyring request.service "identity" =
        some request.generated.secret.val) := by
  have hholdings := save_holdings store h request.generated
  have hsaved := (IdentityKeyStore.save_writes h.store store request.generated).result
  have hkept := (IdentityKeyStore.save_keeps (h.others request.service (contents keyring)) store
    ⟨hservice, fun service _ => congrFun hloaded service⟩ request.generated).1
  rw [hloaded, hservice, haccount] at hholdings
  rw [hkept, haccount] at hsaved
  exact ⟨hholdings, hsaved⟩

theorem step_serves (h : Keyring.Honest contents) (keyring : κ) (request : ProfileRequest) :
    Serves contents keyring (step keyring request).1 request (step keyring request).2 := by
  have hreads := IdentityKeyStore.load_reads h.store (profileStore keyring request.name)
  obtain ⟨hservice, hloaded⟩ := load_holdings (profileStore keyring request.name) h
  have haccount := hreads.account
  have hfound := hreads.result
  rw [step, loadIdentityFrom]
  cases validateProfileName request.name with
  | error error => exact ⟨.inl rfl, nofun, nofun⟩
  | ok =>
      dsimp only
      cases hload : (profileStore keyring request.name).load with
      | mk found store =>
          rw [hload] at hservice hloaded haccount hfound
          change contents store.secrets.keyring = contents keyring at hloaded
          rcases found with error | _ | identity
          · exact ⟨.inl hloaded, nofun, nofun⟩
          · have hnone : contents keyring request.service "identity" = none := hfound none rfl
            dsimp only
            cases hcreate : request.create with
            | false => exact ⟨.inl hloaded, nofun, nofun⟩
            | true =>
                obtain ⟨hholdings, hsaved⟩ := save_holds h hservice haccount hloaded
                rw [if_pos rfl]
                cases hsave : store.save request.generated with
                | mk saved store' =>
                    rw [hsave] at hholdings hsaved
                    have hcontents : contents store'.secrets.keyring = contents keyring ∨ request.create = true ∧
                        contents keyring request.service "identity" = none ∧
                        contents store'.secrets.keyring =
                          (contents keyring).write request.service "identity" request.generated.secret.val :=
                      hholdings.imp id fun hwritten => ⟨hcreate, hnone, hwritten⟩
                    cases saved with
                    | error error => exact ⟨hcontents, nofun, nofun⟩
                    | ok =>
                        refine ⟨hcontents, ?_, ?_⟩
                        · rintro _ ⟨⟩
                          exact hsaved rfl
                        · rintro - _ ⟨⟩
                          exact ⟨rfl, hnone⟩
          · have hsome : contents keyring request.service "identity" = some identity.secret.val :=
              hfound (some identity) rfl
            dsimp only
            cases hcreate : request.create with
            | true => exact ⟨.inl hloaded, nofun, nofun⟩
            | false =>
                refine ⟨.inl hloaded, ?_, ?_⟩
                · rintro _ ⟨⟩
                  exact (congrFun (congrFun hloaded _) _).trans hsome
                · rw [hcreate]
                  nofun

def Grows (before after : Holdings) : Prop :=
  ∀ service account secret, before service account = some secret → after service account = some secret

omit [Keyring κ] in
theorem Serves.grows {keyring after : κ} {request : ProfileRequest} {result : Except Text IdentityKeypair}
    (h : Serves contents keyring after request result) : Grows (contents keyring) (contents after) := by
  intro service account secret hsecret
  rcases h.holdings with hcontents | ⟨-, hnone, hcontents⟩
  · rw [hcontents]
    exact hsecret
  · rw [hcontents]
    by_cases hservice : service = request.service
    · by_cases haccount : account = "identity"
      · rw [hservice, haccount, hnone] at hsecret
        cases hsecret
      · rw [hservice, write_same, Function.update_of_ne haccount, ← hservice]
        exact hsecret
    · rw [write_other hservice]
      exact hsecret

/-- The identities a keyring has given out are the ones it holds, and a profile
has one. -/
structure Holds (contents : κ → Holdings) (start : κ)
    (past : List (Record κ ProfileRequest (Except Text IdentityKeypair))) (keyring : κ) : Prop where
  grows : Grows (contents start) (contents keyring)
  untouched : ∀ service account, (∀ call ∈ past, call.input.create = true → call.input.service = service →
    account ≠ "identity") → contents keyring service account = contents start service account
  given : ∀ call ∈ past, ∀ identity, call.out = .ok identity →
    contents keyring call.input.service "identity" = some identity.secret.val
  made : ∀ call ∈ past, call.input.create = true → ∀ identity, call.out = .ok identity →
    identity = call.input.generated
  once : Each (fun before later => ∀ call ∈ before, call.input.name = later.input.name →
    ∀ identity identity', call.out = .ok identity → later.out = .ok identity' →
    later.input.create = false ∧ identity' = identity) past

omit [Keyring κ] in
theorem holds_start (keyring : κ) : Holds contents keyring [] keyring :=
  ⟨fun _ _ _ hsecret => hsecret, fun _ _ _ => rfl, nofun, nofun, each_nil⟩

theorem Holds.step {start keyring : κ} {past : List (Record κ ProfileRequest (Except Text IdentityKeypair))}
    (h : Keyring.Honest contents) (hholds : Holds contents start past keyring) (request : ProfileRequest) :
    Holds contents start (past ++ [record ProfileRequest.step keyring request])
      (ProfileRequest.step keyring request).1 := by
  have hserves := step_serves h keyring request
  have hgrows := hserves.grows
  refine ⟨?_, ?_, ?_, ?_, hholds.once.snoc ?_⟩
  · exact fun service account secret hsecret => hgrows _ _ _ (hholds.grows _ _ _ hsecret)
  · intro service account huntouched
    have hpast := hholds.untouched service account fun call hcall => huntouched call (List.mem_append_left _ hcall)
    rcases hserves.holdings with hcontents | ⟨hcreate, -, hcontents⟩
    · rw [hcontents]
      exact hpast
    · rw [hcontents]
      by_cases hservice : request.service = service
      · have haccount : account ≠ "identity" :=
          huntouched _ (List.mem_append_right _ (List.mem_singleton_self _)) hcreate hservice
        rw [hservice, write_same, Function.update_of_ne haccount]
        exact hpast
      · rw [write_other (Ne.symm hservice)]
        exact hpast
  · intro call hcall identity hok
    rcases List.mem_append.1 hcall with hcall | hcall
    · exact hgrows _ _ _ (hholds.given call hcall identity hok)
    · obtain rfl := List.mem_singleton.1 hcall
      exact hserves.given identity hok
  · intro call hcall hcreate identity hok
    rcases List.mem_append.1 hcall with hcall | hcall
    · exact hholds.made call hcall hcreate identity hok
    · obtain rfl := List.mem_singleton.1 hcall
      exact (hserves.created hcreate identity hok).1
  · intro call hcall hname identity identity' hok hok'
    have hservice : call.input.service = request.service := congrArg ("ruxmsg-".toList ++ ·) hname
    have hgiven := hholds.given call hcall identity hok
    rw [hservice] at hgiven
    cases hcreate : request.create with
    | true =>
        rw [(hserves.created hcreate identity' hok').2] at hgiven
        cases hgiven
    | false =>
        have hsecret := (hgrows _ _ _ hgiven).symm.trans (hserves.given identity' hok')
        exact ⟨hcreate, congrArg IdentityKeypair.mk (Subtype.ext (Option.some.inj hsecret)).symm⟩

end ProfileRequest

/-- Over any run of profile commands, on a keyring that may fail at any call
and may drop writes: no entry is changed or lost, none is made but the identity
of a new profile, which holds the seed that was generated for it, and every command
that succeeds for a profile gives the one identity that was made for it. -/
theorem profiles_keep_identities {contents : κ → Holdings} (h : Keyring.Honest contents) (keyring : κ)
    (requests : List ProfileRequest) :
    let calls := trace ProfileRequest.step keyring requests
    let after := contents (final ProfileRequest.step keyring requests)
    (∀ service account secret, contents keyring service account = some secret →
      after service account = some secret) ∧
    (∀ service account, (∀ call ∈ calls, call.input.create = true → call.input.service = service →
      account ≠ "identity") → after service account = contents keyring service account) ∧
    (∀ call ∈ calls, contents call.post = contents call.pre ∨ call.input.create = true ∧
      contents call.pre call.input.service "identity" = none ∧ contents call.post =
        (contents call.pre).write call.input.service "identity" call.input.generated.secret.val) ∧
    (∀ call ∈ calls, ∀ identity, call.out = .ok identity →
      after call.input.service "identity" = some identity.secret.val ∧
      (call.input.create = true → identity = call.input.generated)) ∧
    Each (fun before later => ∀ call ∈ before, call.input.name = later.input.name →
      ∀ identity identity', call.out = .ok identity → later.out = .ok identity' →
      later.input.create = false ∧ identity' = identity) calls := by
  have hholds := trace_induction ProfileRequest.step (ProfileRequest.Holds contents keyring) keyring
    (ProfileRequest.holds_start keyring) (fun _ _ request hholds => hholds.step h request) requests
  refine ⟨hholds.grows, hholds.untouched, ?_, ?_, hholds.once⟩
  · intro call hcall
    obtain ⟨before, request, after, -, rfl⟩ := (mem_trace ProfileRequest.step).1 hcall
    exact (ProfileRequest.step_serves h _ request).holdings
  · intro call hcall identity hok
    exact ⟨hholds.given call hcall identity hok, fun hcreate => hholds.made call hcall hcreate identity hok⟩

namespace Sample

/-- A keyring in memory, the next writes to which are lost without a word. -/
structure Memory where
  holdings : Holdings
  drops : Nat

def Memory.getSecret (memory : Memory) (service : Text) (account : String) : Except KeyringError (List UInt8) :=
  match memory.holdings service account with
  | some bytes => .ok bytes
  | none => .error (.noEntry "No matching entry found in secure storage")

def Memory.setSecret (memory : Memory) (service : Text) (account : String) (value : List UInt8) : Memory :=
  match memory.drops with
  | 0 => { memory with holdings := memory.holdings.write service account value }
  | drops + 1 => { memory with drops }

instance : Keyring Memory where
  native := true
  getSecret memory service account := (memory.getSecret service account, memory)
  setSecret memory service account value := (.ok (), memory.setSecret service account value)

theorem memory_honest : Keyring.Honest Memory.holdings where
  get _ _ _ := rfl
  found memory service account bytes hfound := by
    change memory.getSecret service account = _ at hfound
    rw [Memory.getSecret] at hfound
    cases hentry : memory.holdings service account with
    | none =>
        rw [hentry] at hfound
        cases hfound
    | some entry =>
        rw [hentry] at hfound
        exact congrArg some (Except.ok.inj hfound)
  missing memory service account text hmissing := by
    change memory.getSecret service account = _ at hmissing
    rw [Memory.getSecret] at hmissing
    cases hentry : memory.holdings service account with
    | none => rfl
    | some entry =>
        rw [hentry] at hmissing
        cases hmissing
  set memory service account value := by
    change (memory.setSecret service account value).holdings = _ ∨ (memory.setSecret service account value).holdings = _
    rw [Memory.setSecret]
    split
    · exact .inr rfl
    · exact .inl rfl

def alice (create : Bool) (byte : UInt8) : ProfileRequest :=
  { name := "alice".toList, create, generated := ⟨Bytes.replicate 32 byte⟩ }

/-- The first attempt to make a profile comes to nothing, as its write is lost. -/
def attempts : List (Record Memory ProfileRequest (Except Text IdentityKeypair)) :=
  trace ProfileRequest.step { holdings := fun _ _ => none, drops := 1 } [alice true 7, alice true 8, alice false 9]

end Sample

open Cli.Sample in
/-- The second attempt makes it, and what it made is taken up. -/
theorem profiles_keep_identities_alice :
    attempts.map (fun call => call.out.toOption) =
        [none, some ⟨Bytes.replicate 32 8⟩, some ⟨Bytes.replicate 32 8⟩] ∧
      (final ProfileRequest.step (Memory.mk (fun _ _ => none) 1) [alice true 7, alice true 8, alice false 9]).holdings
        "ruxmsg-alice".toList "identity" = some (List.replicate 32 8) := by
  have houts : attempts.map (fun call => call.out.toOption) =
      [none, some ⟨Bytes.replicate 32 8⟩, some ⟨Bytes.replicate 32 8⟩] := by
    decide +kernel
  refine ⟨houts, ?_⟩
  obtain ⟨-, -, -, hgiven, -⟩ := profiles_keep_identities memory_honest (Memory.mk (fun _ _ => none) 1)
    [alice true 7, alice true 8, alice false 9]
  exact (hgiven _ (List.mem_cons_of_mem _ List.mem_cons_self) ⟨Bytes.replicate 32 8⟩ rfl).1

end Ruxmsg.Cli
