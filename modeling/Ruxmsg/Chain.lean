import Ruxmsg.Delivery
import Ruxmsg.Library.KeyCache

namespace Ruxmsg

open Library.Machine Library.KeyCache

def chainLimits : Limits := { gap := maxSkippedKeys, capacity := maxPreparedKeys, last := u64Max }

variable [Primitives] {chainKey : Bytes 32} {direction : DirectionId} {chain : ReceivingChain} {cache : Cache}

/-- A chain that stands where the cache stands in the key schedule of its direction. -/
structure ReceivingChain.Models (chain : ReceivingChain) (chainKey : Bytes 32) (direction : DirectionId)
    (cache : Cache) : Prop where
  walks : chain.Walks chainKey direction
  next_eq : chain.nextCounter = cache.next
  held_iff : ∀ n, (chain.skipped.lookup n).isSome ↔ n ∈ cache.held

theorem ReceivingChain.models_new :
    (ReceivingChain.new chainKey direction).Models chainKey direction Cache.empty := by
  refine ⟨walks_new, rfl, ?_⟩
  intro n
  simp [ReceivingChain.new, Cache.empty]

theorem ReceivingChain.Models.lookup (h : chain.Models chainKey direction cache) {n : Nat}
    (hn : n ∈ cache.held) : chain.skipped.lookup n = some (messageKeyAt chainKey direction n) := by
  obtain ⟨key, hkey⟩ := Option.isSome_iff_exists.1 ((h.held_iff n).2 hn)
  rw [hkey, (h.walks.passed n key hkey).2]

theorem ReceivingChain.Models.lookup_none (h : chain.Models chainKey direction cache) {n : Nat}
    (hn : n ∉ cache.held) : chain.skipped.lookup n = none := by
  rw [← Option.not_isSome_iff_eq_none, h.held_iff]
  exact hn

theorem ReceivingChain.Models.skippedLen (h : chain.Models chainKey direction cache) :
    chain.skippedLen = cache.held.card := by
  have hkeys : chain.skipped.keys.toFinset = cache.held := by
    ext n
    rw [List.mem_toFinset, ← h.held_iff, AList.lookup_isSome, AList.mem_keys]
  rw [← hkeys, List.toFinset_card_of_nodup chain.skipped.keys_nodup, ReceivingChain.skippedLen]
  exact (List.length_map _).symm

theorem ReceivingChain.Models.advance (h : chain.Models chainKey direction cache) :
    chain.advance.2.Models chainKey direction (cache.prepare cache.next) := by
  obtain ⟨-, hw, hn, -, -⟩ := h.walks.advance
  refine ⟨hw, ?_, ?_⟩
  · rw [hn, h.next_eq, Cache.next_prepare le_rfl]
  · intro n
    rw [Cache.mem_prepare, ← h.held_iff, ReceivingChain.advance, AList.lookup_isSome, AList.mem_insert,
      AList.lookup_isSome, h.next_eq, or_comm]
    apply or_congr_right
    omega

theorem ReceivingChain.Models.advanceTo (h : chain.Models chainKey direction cache) (gap : Nat) :
    (chain.advanceTo gap).2.Models chainKey direction (cache.prepare (cache.next + gap)) := by
  induction gap generalizing chain cache with
  | zero => exact h.advance
  | succ gap ih =>
      have hstep := ih h.advance
      rw [Cache.next_prepare le_rfl, Cache.prepare_prepare (by omega)] at hstep
      have he : cache.next + 1 + gap = cache.next + (gap + 1) := by omega
      rw [he] at hstep
      exact hstep

/-- A ready counter: the chain derives as far as the cache does. -/
theorem ReceivingChain.Models.prepare_ready (h : chain.Models chainKey direction cache) {n : Nat}
    (hready : cache.Ready chainLimits n) : ∃ chain',
      chain.prepareMessageKey n = (.ok (messageKeyAt chainKey direction n), chain') ∧
        chain'.Models chainKey direction (cache.prepare n) := by
  by_cases hheld : n ∈ cache.held
  · refine ⟨chain, ?_, ?_⟩
    · rw [ReceivingChain.prepareMessageKey, h.lookup hheld]
    · rw [Cache.prepare_of_lt (cache.held_lt n hheld)]
      exact h
  · obtain ⟨hnext, (hlast : n ≠ u64Max), (hgap : n - cache.next ≤ maxSkippedKeys),
      (hroom : cache.held.card + (n - cache.next) + 1 ≤ maxPreparedKeys)⟩ := hready.resolve_left hheld
    have hm := h.advanceTo (n - cache.next)
    obtain ⟨hkey, -⟩ := h.walks.advanceTo (n - cache.next)
    rw [Nat.add_sub_cancel' hnext] at hm
    rw [h.next_eq, Nat.add_sub_cancel' hnext] at hkey
    refine ⟨_, ?_, hm⟩
    rw [ReceivingChain.prepareMessageKey, h.lookup_none hheld]
    dsimp only
    rw [h.next_eq, h.skippedLen, if_neg (Nat.not_lt.2 hnext), if_neg hlast, if_neg (Nat.not_lt.2 hgap),
      if_neg (Nat.not_lt.2 hroom), hkey]

/-- A counter that is not ready leaves the chain alone; beyond the derived
keys it is the limits that refuse it. -/
theorem ReceivingChain.Models.prepare_refused (h : chain.Models chainKey direction cache) {n : Nat}
    (hready : ¬ cache.Ready chainLimits n) : ∃ error,
      chain.prepareMessageKey n = (.error error, chain) ∧
        (cache.next ≤ n → n ≠ u64Max → error = .skippedKeyLimit) := by
  have hheld : n ∉ cache.held := fun hn => hready (.inl hn)
  rw [ReceivingChain.prepareMessageKey, h.lookup_none hheld]
  dsimp only
  rw [h.next_eq, h.skippedLen]
  by_cases h1 : n < cache.next
  · rw [if_pos h1]
    exact ⟨_, rfl, fun hle => absurd hle (Nat.not_le.2 h1)⟩
  by_cases h2 : n = u64Max
  · rw [if_neg h1, if_pos h2]
    exact ⟨_, rfl, fun _ hne => absurd h2 hne⟩
  by_cases h3 : maxSkippedKeys < n - cache.next
  · rw [if_neg h1, if_neg h2, if_pos h3]
    exact ⟨_, rfl, fun _ _ => rfl⟩
  by_cases h4 : maxPreparedKeys < cache.held.card + (n - cache.next) + 1
  · rw [if_neg h1, if_neg h2, if_neg h3, if_pos h4]
    exact ⟨_, rfl, fun _ _ => rfl⟩
  · exact absurd (.inr ⟨Nat.le_of_not_lt h1, h2, Nat.le_of_not_lt h3, Nat.le_of_not_lt h4⟩) hready

theorem ReceivingChain.Models.commit (h : chain.Models chainKey direction cache) {n : Nat}
    (hn : n ∈ cache.held) : ∃ chain', chain.commitMessageKey n = .ok chain' ∧
      chain'.Models chainKey direction (cache.take n) := by
  have hsome : (chain.skipped.lookup n).isSome := (h.held_iff n).2 hn
  have hlt : n < chain.nextCounter := by
    rw [h.next_eq]
    exact cache.held_lt n hn
  have hc : chain.commitMessageKey n = .ok { chain with skipped := chain.skipped.erase n } := by
    rw [ReceivingChain.commitMessageKey, if_pos hsome]
  obtain ⟨hw, -⟩ := h.walks.commitMessageKey hlt hc
  refine ⟨_, hc, hw, h.next_eq, ?_⟩
  intro m
  rw [Cache.mem_take, ← h.held_iff, AList.lookup_isSome, AList.lookup_isSome, AList.mem_erase]

theorem ReceivingChain.Models.commit_refused (h : chain.Models chainKey direction cache) {n : Nat}
    (hn : n ∉ cache.held) : chain.commitMessageKey n = .error (.messageKeyUnavailable n) := by
  rw [ReceivingChain.commitMessageKey, h.lookup_none hn]
  rfl

theorem ReceivingChain.Models.prepare_eq_ok (h : chain.Models chainKey direction cache) {n : Nat}
    {key : Bytes 32} (hk : (chain.prepareMessageKey n).1 = .ok key) :
    cache.Ready chainLimits n ∧ key = messageKeyAt chainKey direction n := by
  by_cases hready : cache.Ready chainLimits n
  · obtain ⟨chain', hp, -⟩ := h.prepare_ready hready
    rw [hp] at hk
    exact ⟨hready, (Except.ok.inj hk).symm⟩
  · obtain ⟨error, hp, -⟩ := h.prepare_refused hready
    rw [hp] at hk
    cases hk

section Calls

inductive ChainCall
  | prepare (counter : Nat)
  | commit (counter : Nat)

def ReceivingChain.call (chain : ReceivingChain) : ChainCall → ReceivingChain × Result (Option (Bytes 32))
  | .prepare counter => ((chain.prepareMessageKey counter).2, some <$> (chain.prepareMessageKey counter).1)
  | .commit counter =>
      match chain.commitMessageKey counter with
      | .ok chain => (chain, .ok none)
      | .error error => (chain, .error error)

def ChainCall.counter : ChainCall → Nat
  | .prepare counter => counter
  | .commit counter => counter

/-- A call prepares a ready key, or commits a held one, or leaves the chain as
it is and fails. -/
theorem ReceivingChain.Models.call_cases (h : chain.Models chainKey direction cache) (call : ChainCall) :
    (∃ n, call = .prepare n ∧ cache.Ready chainLimits n ∧
      (chain.call call).1.Models chainKey direction (cache.prepare n) ∧ ∃ key, (chain.call call).2 = .ok key) ∨
    (∃ n, call = .commit n ∧ n ∈ cache.held ∧
      (chain.call call).1.Models chainKey direction (cache.take n) ∧ (chain.call call).2 = .ok none) ∨
    (chain.call call).1 = chain := by
  cases call with
  | prepare n =>
      by_cases hready : cache.Ready chainLimits n
      · left
        obtain ⟨chain', hp, hm⟩ := h.prepare_ready hready
        refine ⟨n, rfl, hready, ?_, ?_⟩
        · rw [ReceivingChain.call, hp]
          exact hm
        · rw [ReceivingChain.call, hp]
          exact ⟨_, rfl⟩
      · right; right
        obtain ⟨error, hp, -⟩ := h.prepare_refused hready
        rw [ReceivingChain.call, hp]
  | commit n =>
      by_cases hheld : n ∈ cache.held
      · right; left
        obtain ⟨chain', hc, hm⟩ := h.commit hheld
        refine ⟨n, rfl, hheld, ?_, ?_⟩
        · rw [ReceivingChain.call, hc]
          exact hm
        · rw [ReceivingChain.call, hc]
      · right; right
        rw [ReceivingChain.call, h.commit_refused hheld]

/-- One call: a key that is spent stays so, and a key that is ready stays so
until its own commit. -/
theorem ReceivingChain.Models.call (h : chain.Models chainKey direction cache) (call : ChainCall) :
    ∃ cache', (chain.call call).1.Models chainKey direction cache' ∧
      (∀ n, n < cache.next → n ∉ cache.held → n < cache'.next ∧ n ∉ cache'.held) ∧
      ∀ n, cache.Ready chainLimits n → call ≠ .commit n → cache'.Ready chainLimits n := by
  rcases h.call_cases call with ⟨counter, -, -, hm, -⟩ | ⟨counter, rfl, -, hm, -⟩ | hsame
  · refine ⟨cache.prepare counter, hm, ?_, fun n hn _ => hn.prepare counter⟩
    intro n hlt hn
    refine ⟨hlt.trans_le (le_max_left _ _), ?_⟩
    rw [Cache.mem_prepare]
    rintro (hheld | ⟨hle, -⟩)
    · exact hn hheld
    · omega
  · refine ⟨cache.take counter, hm, ?_, ?_⟩
    · intro n hlt hn
      exact ⟨hlt, fun hmem => hn (Cache.mem_take.1 hmem).2⟩
    · intro n hn hne
      apply hn.take
      rintro rfl
      exact hne rfl
  · rw [hsame]
    exact ⟨cache, h, fun n hlt hn => ⟨hlt, hn⟩, fun n hn _ => hn⟩

/-- One call keeps to the limits, however far ahead its counter is. -/
theorem ReceivingChain.Models.call_within (h : chain.Models chainKey direction cache)
    (hcache : cache.Within chainLimits) {call : ChainCall} (hcall : call.counter ≤ u64Max) :
    ∃ cache', (chain.call call).1.Models chainKey direction cache' ∧ cache'.Within chainLimits ∧
      cache.next ≤ cache'.next ∧ cache'.next ≤ cache.next + (maxSkippedKeys + 1) ∧
      ∀ error, (chain.call call).2 = .error error → (chain.call call).1 = chain := by
  rcases h.call_cases call with ⟨n, rfl, hready, hm, key, hok⟩ | ⟨n, rfl, hheld, hm, hok⟩ | hsame
  · refine ⟨cache.prepare n, hm, hcache.prepare hready hcall, le_max_left _ _, hready.next_prepare_le, ?_⟩
    intro error he
    cases hok.symm.trans he
  · refine ⟨cache.take n, hm, hcache.take n, le_rfl, Nat.le_add_right _ _, ?_⟩
    intro error he
    cases hok.symm.trans he
  · rw [hsame]
    exact ⟨cache, h, hcache, le_rfl, Nat.le_add_right _ _, fun _ _ => rfl⟩

def ReceivingChain.after (chainKey : Bytes 32) (direction : DirectionId) (calls : List ChainCall) :
    ReceivingChain :=
  final ReceivingChain.call (ReceivingChain.new chainKey direction) calls

theorem ReceivingChain.Models.calls (h : chain.Models chainKey direction cache) (calls : List ChainCall) :
    ∃ cache', (final ReceivingChain.call chain calls).Models chainKey direction cache' ∧
      (∀ n, n < cache.next → n ∉ cache.held → n < cache'.next ∧ n ∉ cache'.held) ∧
      ∀ n, cache.Ready chainLimits n → .commit n ∉ calls → cache'.Ready chainLimits n := by
  induction calls generalizing chain cache with
  | nil => exact ⟨cache, h, fun n hlt hn => ⟨hlt, hn⟩, fun n hn _ => hn⟩
  | cons call calls ih =>
      obtain ⟨middle, hm, hspent, hready⟩ := h.call call
      obtain ⟨cache', hm', hspent', hready'⟩ := ih hm
      refine ⟨cache', hm', ?_, ?_⟩
      · intro n hlt hn
        obtain ⟨hlt, hn⟩ := hspent n hlt hn
        exact hspent' n hlt hn
      · intro n hn hno
        rw [List.mem_cons, not_or] at hno
        exact hready' n (hready n hn fun he => hno.1 he.symm) hno.2

theorem ReceivingChain.models_after (calls : List ChainCall) :
    ∃ cache, (ReceivingChain.after chainKey direction calls).Models chainKey direction cache := by
  obtain ⟨cache, hm, -⟩ := ReceivingChain.models_new.calls calls
  exact ⟨cache, hm⟩

/-- Whatever calls come before, a receiving chain prepares the key its sender
uses, prepares it again until it is committed, and never after that. -/
theorem one_time_keys [Ciborium] (chainKey : Bytes 32) (direction : DirectionId) (calls : List ChainCall) :
    let chain := ReceivingChain.after chainKey direction calls
    (∀ n key, (chain.prepareMessageKey n).1 = .ok key →
      key = (deriveMessageKey ((fun key => (deriveMessageKey key direction).2)^[n] chainKey) direction).1 ∧
      (∀ sessionId contents, ∀ call ∈ sends sessionId direction chainKey contents, ∀ frame,
        call.out = .ok frame → call.pre.counter = n →
          call.pre.messageKey = key ∧
            ∃ payload, call.pre.Seals call.input payload ∧ encodePayload payload = .ok frame) ∧
      ∀ calls', let later := final ReceivingChain.call (chain.prepareMessageKey n).2 calls'
        (∀ key', (later.prepareMessageKey n).1 = .ok key' → key' = key) ∧
          (.commit n ∉ calls' → (later.prepareMessageKey n).1 = .ok key)) ∧
    ∀ n chain', chain.commitMessageKey n = .ok chain' →
      ∀ calls', let later := final ReceivingChain.call chain' calls'
        (∃ error, (later.prepareMessageKey n).1 = .error error) ∧
          ∃ error, later.commitMessageKey n = .error error := by
  intro chain
  obtain ⟨cache, hm⟩ : ∃ cache, chain.Models chainKey direction cache := ReceivingChain.models_after calls
  constructor
  · intro n key hk
    obtain ⟨hready, rfl⟩ := hm.prepare_eq_ok hk
    obtain ⟨chain', hp, hm'⟩ := hm.prepare_ready hready
    refine ⟨rfl, ?_, ?_⟩
    · rintro sessionId contents call hcall frame hout rfl
      refine ⟨(sends_serves hcall).messageKey, ?_⟩
      obtain ⟨before, content, after, -, rfl⟩ := (mem_trace DataSender.send).1 hcall
      obtain ⟨-, payload, hseals, hframe⟩ := DataSender.encrypt_eq_ok (Prod.ext hout rfl)
      exact ⟨payload, hseals, hframe⟩
    · intro calls' later
      obtain ⟨cache', hlater, -, hstay⟩ := hm'.calls calls'
      have heq : later = final ReceivingChain.call chain' calls' :=
        congrArg (fun result => final ReceivingChain.call result.2 calls') hp
      rw [← heq] at hlater
      constructor
      · intro key' hk'
        exact (hlater.prepare_eq_ok hk').2
      · intro hno
        obtain ⟨chain'', hp', -⟩ := hlater.prepare_ready (hstay n (hready.prepare n) hno)
        rw [hp']
  · intro n chain' hc calls' later
    have hheld : n ∈ cache.held := by
      by_contra hn
      rw [hm.commit_refused hn] at hc
      cases hc
    obtain ⟨chain'', hc', hm'⟩ := hm.commit hheld
    obtain rfl := Except.ok.inj (hc.symm.trans hc')
    obtain ⟨cache', hlater, hspent, -⟩ := hm'.calls calls'
    obtain ⟨hlt, hn⟩ := hspent n (cache.held_lt n hheld) fun hmem => (Cache.mem_take.1 hmem).1 rfl
    constructor
    · obtain ⟨error, hp, -⟩ := hlater.prepare_refused (Cache.not_ready_of_taken hlt hn)
      exact ⟨error, congrArg Prod.fst hp⟩
    · exact ⟨_, hlater.commit_refused hn⟩

theorem ReceivingChain.models_within {calls : List ChainCall} (hcalls : ∀ call ∈ calls, call.counter ≤ u64Max) :
    ∃ cache, (ReceivingChain.after chainKey direction calls).Models chainKey direction cache ∧
      cache.Within chainLimits := by
  induction calls using List.reverseRecOn with
  | nil => exact ⟨Cache.empty, ReceivingChain.models_new, Cache.within_empty⟩
  | append_singleton calls call ih =>
      obtain ⟨cache, hm, hcache⟩ := ih fun call hcall => hcalls call (List.mem_append_left _ hcall)
      have hcall : call.counter ≤ u64Max := hcalls call (List.mem_append_right _ List.mem_cons_self)
      obtain ⟨cache', hm', hcache', -⟩ := hm.call_within hcache hcall
      rw [ReceivingChain.after, final_append]
      exact ⟨cache', hm', hcache'⟩

/-- Whatever counters the calls name, few keys are held, all of counters that
are behind; a call derives few keys, and one that fails changes nothing. -/
theorem bounded_derivation (chainKey : Bytes 32) (direction : DirectionId) (calls : List ChainCall)
    (hcalls : ∀ call ∈ calls, call.counter ≤ u64Max) :
    let chain := ReceivingChain.after chainKey direction calls
    chain.skippedLen ≤ 128 ∧ (∀ n ∈ chain.skipped, n < chain.nextCounter) ∧ chain.nextCounter ≤ u64Max ∧
      ∀ call : ChainCall, call.counter ≤ u64Max →
        chain.nextCounter ≤ (chain.call call).1.nextCounter ∧
        (chain.call call).1.nextCounter ≤ chain.nextCounter + 65 ∧
        ∀ error, (chain.call call).2 = .error error → (chain.call call).1 = chain := by
  intro chain
  obtain ⟨cache, hm, hcache⟩ : ∃ cache, chain.Models chainKey direction cache ∧ cache.Within chainLimits :=
    ReceivingChain.models_within hcalls
  refine ⟨?_, ?_, ?_, ?_⟩
  · rw [hm.skippedLen]
    exact hcache.held_le
  · intro n hn
    rw [hm.next_eq]
    exact cache.held_lt n ((hm.held_iff n).1 (AList.lookup_isSome.2 hn))
  · rw [hm.next_eq]
    exact hcache.next_le
  · intro call hcall
    obtain ⟨cache', hm', -, hle, hadvance, herror⟩ := hm.call_within hcache hcall
    rw [hm.next_eq, hm'.next_eq]
    exact ⟨hle, hadvance, herror⟩

end Calls

end Ruxmsg

namespace Ruxmsg

open Sample in
theorem bounded_derivation_ahead :
    (ReceivingChain.after (Bytes.replicate 32 5) .initiatorToResponder
      [.prepare 40, .prepare u64Max, .commit 3]).skippedLen ≤ 128 :=
  (bounded_derivation (Bytes.replicate 32 5) .initiatorToResponder [.prepare 40, .prepare u64Max, .commit 3]
    (by decide)).1

end Ruxmsg
