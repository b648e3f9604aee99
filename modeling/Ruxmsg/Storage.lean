import Ruxmsg.Forms
import Mathlib.Logic.Function.Basic

namespace Ruxmsg

structure StorageError where
  text : String
  deriving DecidableEq

/-- A credential store of the operating system. Every call may change what it
answers next. -/
class SecretStore (σ : Type) where
  ensurePersistent : σ → Except StorageError Unit × σ
  getSecret : σ → String → Except StorageError (Option (List UInt8)) × σ
  setSecret : σ → String → List UInt8 → Except StorageError Unit × σ

structure IdentityKeyStore (σ : Type) where
  secrets : σ
  account : String

namespace IdentityKeyStore

variable {σ : Type} [SecretStore σ]

def load (self : IdentityKeyStore σ) : Except StorageError (Option IdentityKeypair) × IdentityKeyStore σ :=
  match SecretStore.ensurePersistent self.secrets with
  | (.error error, secrets) => (.error error, { self with secrets })
  | (.ok (), secrets) =>
      match SecretStore.getSecret secrets self.account with
      | (.error error, secrets) => (.error error, { self with secrets })
      | (.ok none, secrets) => (.ok none, { self with secrets })
      | (.ok (some bytes), secrets) =>
          match Bytes.ofList? 32 bytes with
          | none => (.error ⟨"stored identity seed has the wrong length"⟩, { self with secrets })
          | some seed => (.ok (some ⟨seed⟩), { self with secrets })

def save (self : IdentityKeyStore σ) (identity : IdentityKeypair) :
    Except StorageError Unit × IdentityKeyStore σ :=
  match SecretStore.ensurePersistent self.secrets with
  | (.error error, secrets) => (.error error, { self with secrets })
  | (.ok (), secrets) =>
      match SecretStore.setSecret secrets self.account identity.secret.val with
      | (.error error, secrets) => (.error error, { self with secrets })
      | (.ok (), secrets) =>
          -- A store that drops writes is reported instead of trusted.
          match SecretStore.getSecret secrets self.account with
          | (.error error, secrets) => (.error error, { self with secrets })
          | (.ok stored, secrets) =>
              if stored = some identity.secret.val then (.ok (), { self with secrets })
              else (.error ⟨"credential store did not return the saved identity"⟩, { self with secrets })

/-- `load_or_generate`, by the keypair it would generate. -/
def loadOrGenerate (self : IdentityKeyStore σ) (generated : IdentityKeypair) :
    Except StorageError IdentityKeypair × IdentityKeyStore σ :=
  match self.load with
  | (.error error, self) => (.error error, self)
  | (.ok (some identity), self) => (.ok identity, self)
  | (.ok none, self) =>
      match self.save generated with
      | (.error error, self) => (.error error, self)
      | (.ok (), self) => (.ok generated, self)

end IdentityKeyStore

structure SecretStore.Keeps {σ : Type} [SecretStore σ] (P : σ → Prop) : Prop where
  ensure : ∀ secrets, P secrets → P (ensurePersistent secrets).2
  get : ∀ secrets account, P secrets → P (getSecret secrets account).2
  set : ∀ secrets account value, P secrets → P (setSecret secrets account value).2

abbrev Secrets := String → Option (List UInt8)

/-- A store that answers with what it holds, when it answers. A write may fail
after it was made, and may be dropped without a word. -/
structure SecretStore.Honest {σ : Type} [SecretStore σ] (contents : σ → Secrets) : Prop where
  ensure : ∀ secrets, contents (ensurePersistent secrets).2 = contents secrets
  get : ∀ secrets account, contents (getSecret secrets account).2 = contents secrets
  read : ∀ secrets account value, (getSecret secrets account).1 = .ok value → value = contents secrets account
  set : ∀ secrets account value, contents (setSecret secrets account value).2 = contents secrets ∨
    contents (setSecret secrets account value).2 = Function.update (contents secrets) account (some value)

namespace IdentityKeyStore

open SecretStore

variable {σ : Type} [SecretStore σ] {contents : σ → Secrets}

/-- What loading does: the store is asked whether it is persistent and, if it
is, for the account, and what is found is what it answered. -/
theorem load_cases (self : IdentityKeyStore σ) :
    (∃ error, self.load = (.error error, { self with secrets := (ensurePersistent self.secrets).2 })) ∨
    ∃ result, self.load = (result,
        { self with secrets := (getSecret (ensurePersistent self.secrets).2 self.account).2 }) ∧
      ∀ found, result = .ok found → (getSecret (ensurePersistent self.secrets).2 self.account).1 =
        .ok (found.map fun identity => identity.secret.val) := by
  rw [load]
  cases ensurePersistent self.secrets with
  | mk persistent secrets =>
      cases persistent with
      | error error => exact .inl ⟨error, rfl⟩
      | ok =>
          right
          dsimp only
          cases getSecret secrets self.account with
          | mk found secrets =>
              rcases found with error | _ | bytes
              · exact ⟨_, rfl, nofun⟩
              · refine ⟨_, rfl, ?_⟩
                rintro _ ⟨⟩
                rfl
              · dsimp only
                cases hseed : Bytes.ofList? 32 bytes with
                | none => exact ⟨_, rfl, nofun⟩
                | some seed =>
                    refine ⟨_, rfl, ?_⟩
                    rintro _ ⟨⟩
                    rw [Bytes.ofList?_eq_some hseed]
                    rfl

/-- What saving does: the seed is written if the store is persistent, and read
back if the write did not fail. -/
theorem save_cases (self : IdentityKeyStore σ) (identity : IdentityKeypair) :
    (∃ error, self.save identity = (.error error, { self with secrets := (ensurePersistent self.secrets).2 })) ∨
    ∃ written, written =
        (setSecret (ensurePersistent self.secrets).2 self.account identity.secret.val).2 ∧
      ((∃ error, self.save identity = (.error error, { self with secrets := written })) ∨
      ∃ result, self.save identity = (result, { self with secrets := (getSecret written self.account).2 }) ∧
        (result = .ok () → (getSecret written self.account).1 = .ok (some identity.secret.val))) := by
  rw [save]
  cases ensurePersistent self.secrets with
  | mk persistent secrets =>
      cases persistent with
      | error error => exact .inl ⟨error, rfl⟩
      | ok =>
          right
          dsimp only
          cases setSecret secrets self.account identity.secret.val with
          | mk result written =>
              refine ⟨written, rfl, ?_⟩
              cases result with
              | error error => exact .inl ⟨error, rfl⟩
              | ok =>
                  right
                  dsimp only
                  cases getSecret written self.account with
                  | mk stored secrets =>
                      cases stored with
                      | error error => exact ⟨_, rfl, nofun⟩
                      | ok stored =>
                          dsimp only
                          split_ifs with hstored
                          · exact ⟨_, rfl, fun _ => congrArg _ hstored⟩
                          · exact ⟨_, rfl, nofun⟩

theorem load_keeps {P : σ → Prop} (h : Keeps P) (self : IdentityKeyStore σ) (hself : P self.secrets) :
    P self.load.2.secrets := by
  have hensure := h.ensure self.secrets hself
  obtain ⟨error, heq⟩ | ⟨result, heq, -⟩ := self.load_cases
  · rw [heq]
    exact hensure
  · rw [heq]
    exact h.get _ _ hensure

theorem save_keeps {P : σ → Prop} (h : Keeps P) (self : IdentityKeyStore σ) (hself : P self.secrets)
    (identity : IdentityKeypair) : P (self.save identity).2.secrets := by
  have hensure := h.ensure self.secrets hself
  obtain ⟨error, heq⟩ | ⟨written, rfl, ⟨error, heq⟩ | ⟨result, heq, -⟩⟩ := self.save_cases identity
  · rw [heq]
    exact hensure
  · rw [heq]
    exact h.set _ _ _ hensure
  · rw [heq]
    exact h.get _ _ (h.set _ _ _ hensure)

structure Reads (contents : σ → Secrets) (store after : IdentityKeyStore σ)
    (result : Except StorageError (Option IdentityKeypair)) : Prop where
  account : after.account = store.account
  same : contents after.secrets = contents store.secrets
  result : ∀ found, result = .ok found →
    contents store.secrets store.account = found.map fun identity => identity.secret.val

/-- Saving writes the account's seed or nothing, and the seed is there when it succeeds. -/
structure Writes (contents : σ → Secrets) (store after : IdentityKeyStore σ) (identity : IdentityKeypair)
    (result : Except StorageError Unit) : Prop where
  account : after.account = store.account
  writes : contents after.secrets = contents store.secrets ∨
    contents after.secrets = Function.update (contents store.secrets) store.account (some identity.secret.val)
  result : result = .ok () → contents after.secrets store.account = some identity.secret.val

theorem load_reads (h : Honest contents) (self : IdentityKeyStore σ) :
    Reads contents self self.load.2 self.load.1 := by
  have hensure := h.ensure self.secrets
  obtain ⟨error, heq⟩ | ⟨result, heq, hresult⟩ := self.load_cases
  · rw [heq]
    exact ⟨rfl, hensure, nofun⟩
  · rw [heq]
    refine ⟨rfl, (h.get _ _).trans hensure, ?_⟩
    intro found hfound
    rw [← hensure]
    exact (h.read _ _ _ (hresult found hfound)).symm

theorem save_writes (h : Honest contents) (self : IdentityKeyStore σ) (identity : IdentityKeypair) :
    Writes contents self (self.save identity).2 identity (self.save identity).1 := by
  have hensure := h.ensure self.secrets
  have hset := h.set (ensurePersistent self.secrets).2 self.account identity.secret.val
  rw [hensure] at hset
  obtain ⟨error, heq⟩ | ⟨written, rfl, ⟨error, heq⟩ | ⟨result, heq, hresult⟩⟩ := self.save_cases identity
  · rw [heq]
    exact ⟨rfl, .inl hensure, nofun⟩
  · rw [heq]
    exact ⟨rfl, hset, nofun⟩
  · rw [heq]
    have hget := h.get (setSecret (ensurePersistent self.secrets).2 self.account identity.secret.val).2 self.account
    refine ⟨rfl, ?_, ?_⟩
    · dsimp only
      rw [hget]
      exact hset
    · intro hok
      dsimp only
      rw [hget]
      exact (h.read _ _ _ (hresult hok)).symm

/-- The identity that is used is stored, and it is the one that was stored before
if there was one. -/
theorem loadOrGenerate_stores (h : Honest contents) (self : IdentityKeyStore σ) {generated identity : IdentityKeypair}
    (hok : (self.loadOrGenerate generated).1 = .ok identity) :
    contents (self.loadOrGenerate generated).2.secrets self.account = some identity.secret.val ∧
      (contents self.secrets self.account = some identity.secret.val ∨
        contents self.secrets self.account = none ∧ identity = generated) := by
  have hreads := load_reads h self
  rw [loadOrGenerate] at hok ⊢
  cases hload : self.load with
  | mk found store =>
      rw [hload] at hok hreads
      rcases found with error | _ | stored
      · cases hok
      · have hnone : contents self.secrets self.account = none := hreads.result none rfl
        have hwrites := save_writes h store generated
        dsimp only at hok ⊢
        cases hsave : store.save generated with
        | mk saved store' =>
            rw [hsave] at hok hwrites
            cases saved with
            | error error => cases hok
            | ok =>
                cases hok
                have hstored := hwrites.result rfl
                rw [hreads.account] at hstored
                exact ⟨hstored, .inr ⟨hnone, rfl⟩⟩
      · cases hok
        have hstored : contents self.secrets self.account = some identity.secret.val :=
          hreads.result (some identity) rfl
        exact ⟨(congrFun hreads.same _).trans hstored, .inl hstored⟩

end IdentityKeyStore

end Ruxmsg
