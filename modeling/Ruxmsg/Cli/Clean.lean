import Ruxmsg.Cli.Rooms
import Ruxmsg.Cli.Table

namespace Ruxmsg.Cli

open Library.Machine

namespace Text

/-- A text that a terminal shows as it is: no control characters but newlines,
and none that change the direction of what follows. -/
def Clean (text : Text) : Prop := ∀ c ∈ text, isUnsafe c = false ∧ c ≠ '\t'

instance : DecidablePred Clean := fun text => text.decidableBAll _

def Typed (limit : Nat) (text : Text) : Prop := text.len ≤ limit ∧ ∀ c ∈ text, isControl c = false

variable {p q text : Text} {limit : Nat}

theorem Clean.append (hp : p.Clean) (hq : q.Clean) : (p ++ q).Clean := by
  intro c hc
  rcases List.mem_append.1 hc with hc | hc
  · exact hp c hc
  · exact hq c hc

theorem Clean.of_subset (h : q.Clean) (hsub : p ⊆ q) : p.Clean := fun c hc => h c (hsub hc)

theorem clean_toDigits (n : Nat) : Clean (Nat.toDigits 10 n) := by
  intro c hc
  have hdigit := Nat.isDigit_of_mem_toDigits (by decide) (by decide) hc
  rw [Char.isDigit, Bool.and_eq_true, decide_eq_true_eq, decide_eq_true_eq] at hdigit
  have hlo : 48 ≤ c.toNat := hdigit.1
  have hhi : c.toNat ≤ 57 := hdigit.2
  refine ⟨?_, ?_⟩
  · simp only [isUnsafe, isControl, Bool.or_eq_false_iff, Bool.and_eq_false_iff, decide_eq_false_iff_not]
    omega
  · rintro rfl
    exact absurd hlo (by decide)

theorem Typed.nil (limit : Nat) : Typed limit [] := ⟨Nat.zero_le limit, nofun⟩

theorem len_dropLast_le (text : Text) : len text.dropLast ≤ len text := by
  rcases List.eq_nil_or_concat text with rfl | ⟨front, c, rfl⟩
  · rfl
  · rw [List.concat_eq_append, List.dropLast_concat, len_append]
    exact Nat.le_add_right ..

theorem Typed.dropLast (h : Typed limit text) : Typed limit text.dropLast :=
  ⟨(len_dropLast_le text).trans h.1, fun c hc => h.2 c (List.mem_of_mem_dropLast hc)⟩

theorem Typed.push (h : Typed limit text) {c : Char} (hle : text.len + c.utf8Size ≤ limit)
    (hc : isControl c = false) : Typed limit (text ++ [c]) := by
  refine ⟨?_, ?_⟩
  · rw [len_append]
    exact hle
  · intro d hd
    rcases List.mem_append.1 hd with hd | hd
    · exact h.2 d hd
    · rw [List.mem_singleton.1 hd]
      exact hc

end Text

theorem ingest_clean (bytes : List UInt8) : Text.Clean (ingest bytes) := ingest_safe bytes

theorem clean_peerLabel (n : Nat) : Text.Clean (peerLabel n) :=
  Text.Clean.append (by decide) (Text.clean_toDigits n)

theorem causeText_clean (cause : CloseCause) : Text.Clean (causeText cause) := by
  cases cause with
  | peerUnauthenticated reason =>
      cases reason <;> exact Text.Clean.append (.append (by decide) (by decide)) (by decide)
  | _ => decide

theorem rekeyFailureText_clean (failure : RekeyFailure) : Text.Clean (rekeyFailureText failure) := by
  cases failure <;> decide

theorem KeyEvent.typed_control {key : KeyEvent} {c : Char} (h : key.typed = some c) : isControl c = false := by
  rw [KeyEvent.typed] at h
  split at h
  · split_ifs at h with hc
    obtain rfl := Option.some.inj h
    simp only [Bool.or_eq_true, not_or, Bool.not_eq_true] at hc
    exact hc.2
  · cases h

def History.Clean (self : History) : Prop := ∀ entry ∈ self.scrollback.entries, entry.text.Clean

theorem History.Clean.empty : History.empty.Clean := nofun

theorem Scrollback.Shows.clean {text shown : Text} (h : Scrollback.Shows text shown) (htext : text.Clean) :
    shown.Clean := by
  rcases h with ⟨-, rfl⟩ | ⟨-, p, hp, rfl⟩
  · exact htext
  · exact Text.Clean.append (htext.of_subset hp.isPrefix.subset) (by decide)

theorem Scrollback.evict_suffix {entries : List Entry} {bytes : Nat} {scrollback : Scrollback}
    (h : Scrollback.evict entries bytes = some scrollback) : scrollback.entries <:+ entries := by
  induction entries generalizing bytes with
  | nil =>
      rw [evict] at h
      obtain rfl := Option.some.inj h
      exact List.suffix_rfl
  | cons entry entries ih =>
      rw [evict] at h
      split_ifs at h
      · exact (ih h).trans (List.suffix_cons _ _)
      · obtain rfl := Option.some.inj h
        exact List.suffix_rfl

theorem History.Clean.push {self : History} (h : self.Clean) (author : Author) {text : Text} (htext : text.Clean) :
    (self.push author text).Clean := by
  obtain ⟨line, hshorten, hshows⟩ := Scrollback.shorten_shows text
  have hpush : self.scrollback.push author text = some (self.push author text).scrollback :=
    (Option.some_get (self.push_isSome author text)).symm
  rw [Scrollback.push, hshorten] at hpush
  intro entry hentry
  rcases List.mem_append.1 ((Scrollback.evict_suffix hpush).subset hentry) with hentry | hentry
  · exact h entry hentry
  · rw [List.mem_singleton.1 hentry]
    exact hshows.clean htext

structure Peer.Clean (peer : Peer) : Prop where
  scrollback : peer.scrollback.Clean
  closeNote : ∀ note, peer.closeNote = some note → note.Clean

theorem Peer.Clean.push {peer : Peer} (h : peer.Clean) (author : Author) {text : Text} (htext : text.Clean) :
    Peer.Clean { peer with scrollback := peer.scrollback.push author text } :=
  ⟨h.scrollback.push author htext, h.closeNote⟩

structure PendingSas.Clean (pending : PendingSas) : Prop where
  label : pending.label.Clean
  typed : pending.typed.Typed maxTyped

/-- A call that the engine behind the handle does not refuse for its size. -/
def Call.Fits : Call → Prop
  | .sendMessage _ content => content.length ≤ maxContent
  | _ => True

namespace App

/-- What is shown is clean, what is typed is within its bounds, and a chat has
the terminal to itself. -/
structure Clean (app : App) : Prop where
  peers : ∀ label peer, app.peers.lookup label = some peer → label.Clean ∧ peer.Clean
  byId : ∀ id label, app.byId.lookup id = some label → label.Clean
  sas : ∀ pending ∈ app.sas, pending.Clean
  view : ∀ view, app.mode = .chat view → view.label.Clean ∧ view.input.Typed maxContent
  input : app.input.Typed maxContent
  terminal : app.terminal = true ↔ ∃ view, app.mode = .chat view

variable {self app : App} {replies : Replies} {label text : Text} {f : Peer → Peer}

def Fine (turn : App × List Call) : Prop := turn.1.Clean ∧ ∀ call ∈ turn.2, call.Fits

theorem Clean.fine (h : self.Clean) : Fine (self, []) := ⟨h, nofun⟩

theorem Clean.modify (h : self.Clean) (label : Text) (hf : ∀ peer : Peer, peer.Clean → (f peer).Clean) :
    (self.modify label f).Clean := by
  have hrest : (self.modify label f).byId = self.byId ∧ (self.modify label f).input = self.input ∧
      (self.modify label f).terminal = self.terminal := by
    rw [App.modify]
    split <;> exact ⟨rfl, rfl, rfl⟩
  refine ⟨?_, ?_, ?_, ?_, ?_, ?_⟩
  · intro l peer' hpeer'
    rw [lookup_modify] at hpeer'
    split_ifs at hpeer' with hl
    · obtain ⟨peer, hpeer, rfl⟩ := Option.map_eq_some_iff.1 hpeer'
      rw [hl]
      exact ⟨(h.peers label peer hpeer).1, hf peer (h.peers label peer hpeer).2⟩
    · exact h.peers l peer' hpeer'
  · rw [hrest.1]
    exact h.byId
  · rw [sas_modify]
    exact h.sas
  · rw [mode_modify]
    exact h.view
  · rw [hrest.2.1]
    exact h.input
  · rw [hrest.2.2, mode_modify]
    exact h.terminal

theorem Clean.notice (h : self.Clean) (label : Text) (htext : text.Clean) : (self.notice label text).Clean :=
  h.modify label fun _ hpeer => hpeer.push .system htext

theorem Clean.forget (h : self.Clean) (label : Text) : (self.forget label).Clean := by
  rw [App.forget]
  split
  · refine ⟨?_, ?_, h.sas, h.view, h.input, h.terminal⟩
    · intro l peer hpeer
      by_cases hl : l = label
      · rw [hl, AList.lookup_erase] at hpeer
        cases hpeer
      · rw [AList.lookup_erase_ne hl] at hpeer
        exact h.peers l peer hpeer
    · next peer _ =>
      intro id l hid
      by_cases heq : id = peer.id
      · rw [heq, AList.lookup_erase] at hid
        cases hid
      · rw [AList.lookup_erase_ne heq] at hid
        exact h.byId id l hid
  · exact h

theorem Clean.redrawChat (h : self.Clean) (replies : Replies) : (self.redrawChat replies).2.Clean := by
  rw [App.redrawChat]
  split
  · next _ _ view hmode hterminal =>
    refine ⟨h.peers, h.byId, h.sas, ?_, h.input, ?_⟩
    · rintro view' ⟨⟩
      exact h.view view hmode
    · exact iff_of_true hterminal ⟨_, rfl⟩
  · exact h

theorem Clean.leaveChat (h : self.Clean) : self.leaveChat.Clean := by
  have hleft : Clean { self with terminal := false, mode := .repl } :=
    ⟨h.peers, h.byId, h.sas, nofun, h.input, by simp⟩
  rw [App.leaveChat]
  split
  · exact hleft
  · split
    · exact hleft.forget _
    · exact hleft

theorem Clean.editTyped (h : self.Clean) {f : Text → Text}
    (hf : ∀ typed, Text.Typed maxTyped typed → Text.Typed maxTyped (f typed)) : (self.editTyped f).Clean := by
  rw [App.editTyped]
  split
  · exact h
  · next pending sas hsas =>
    have hpending := h.sas pending (by rw [hsas]; exact List.mem_cons_self)
    refine ⟨h.peers, h.byId, ?_, h.view, h.input, h.terminal⟩
    intro pending' hpending'
    rcases List.mem_cons.1 hpending' with rfl | hpending'
    · exact ⟨hpending.label, hf _ hpending.typed⟩
    · exact h.sas pending' (by rw [hsas]; exact List.mem_cons_of_mem _ hpending')

section Events

theorem Clean.onSasRequired (h : self.Clean) (replies : Replies) (id : ConnId) {label : Text} (hlabel : label.Clean)
    (words : List String) (peer : PeerIdentity) : Fine (self.onSasRequired replies id label words peer) := by
  have hknown : (self.modify label fun peer' =>
      { peer' with fingerprint := some (Cli.fingerprint peer) }).Clean :=
    h.modify label fun _ hpeer => ⟨hpeer.scrollback, hpeer.closeNote⟩
  rw [App.onSasRequired]
  split
  · refine ⟨hknown.notice label ?_, ?_⟩
    · split
      · decide
      · exact Text.Clean.append (by decide) (by split <;> decide)
    · rintro call hcall
      rw [List.mem_singleton.1 hcall]
      exact trivial
  · refine Clean.fine ⟨hknown.peers, hknown.byId, ?_, hknown.view, hknown.input, hknown.terminal⟩
    intro pending hpending
    rcases List.mem_append.1 hpending with hpending | hpending
    · exact hknown.sas pending hpending
    · rw [List.mem_singleton.1 hpending]
      exact ⟨hlabel, .nil _⟩

theorem Clean.onMessage (h : self.Clean) (label : Text) (bytes : List UInt8) : (self.onMessage label bytes).Clean := by
  have htouched : Clean { self with touched := true } := ⟨h.peers, h.byId, h.sas, h.view, h.input, h.terminal⟩
  have hheard := htouched.modify label
    (f := fun peer => { peer with
      unread := if self.views label then peer.unread else peer.unread + 1
      scrollback := peer.scrollback.push .remote (ingest bytes) })
    fun _ hpeer => ⟨hpeer.scrollback.push .remote (ingest_clean bytes), hpeer.closeNote⟩
  rw [App.onMessage]
  split
  · next view hmode =>
    split
    · refine ⟨hheard.peers, hheard.byId, hheard.sas, ?_, hheard.input, ?_⟩
      · rintro view' ⟨⟩
        exact hheard.view view hmode
      · exact iff_of_true (hheard.terminal.2 ⟨view, hmode⟩) ⟨_, rfl⟩
    · exact hheard
  · exact hheard

theorem Clean.onDataRejected (h : self.Clean) (replies : Replies) (label : Text) :
    (self.onDataRejected replies label).Clean := by
  apply h.modify
  intro peer hpeer
  split_ifs
  · exact hpeer
  · exact ⟨hpeer.scrollback.push .system (by decide), hpeer.closeNote⟩

theorem Clean.onClosed (h : self.Clean) (id : ConnId) (label : Text) (cause : CloseCause) :
    (self.onClosed id label cause).Clean := by
  have hdropped : Clean { self with sas := self.sas.filter fun pending => pending.id ≠ id } :=
    ⟨h.peers, h.byId, fun pending hpending => h.sas pending (List.mem_of_mem_filter hpending), h.view, h.input,
      h.terminal⟩
  have hclosed := hdropped.modify label
    (f := fun peer => { peer with
      status := .closed
      rekeying := false
      closeNote := some (causeText cause)
      scrollback := peer.scrollback.push .system (causeText cause) })
    fun _ hpeer => ⟨hpeer.scrollback.push .system (causeText_clean cause), by
      rintro note ⟨⟩
      exact causeText_clean cause⟩
  rw [App.onClosed]
  generalize App.modify _ label _ = closed at hclosed ⊢
  have htargeted (target : Option Text) : Clean { closed with defaultTarget := target } :=
    ⟨hclosed.peers, hclosed.byId, hclosed.sas, hclosed.view, hclosed.input, hclosed.terminal⟩
  split_ifs
  · exact htargeted none
  · exact (htargeted none).forget label
  · exact htargeted closed.defaultTarget
  · exact (htargeted closed.defaultTarget).forget label

theorem Clean.onConnEvent (h : self.Clean) (replies : Replies) (id : ConnId) (event : ConnEvent) :
    Fine (self.onConnEvent replies id event) := by
  rw [App.onConnEvent]
  split
  · exact h.fine
  · next label hplace =>
    cases event with
    | sasRequired words peer => exact h.onSasRequired replies id (h.byId id label hplace) words peer
    | established peer =>
        apply Clean.fine
        exact h.modify label fun _ hpeer => ⟨hpeer.scrollback.push .system (by decide), hpeer.closeNote⟩
    | message content => exact (h.onMessage label content).fine
    | rekeyStarted | rekeyCompleted =>
        apply Clean.fine
        exact h.modify label fun _ hpeer => ⟨hpeer.scrollback, hpeer.closeNote⟩
    | rekeyFailed failure =>
        apply Clean.fine
        apply Clean.notice _ label (rekeyFailureText_clean failure)
        exact h.modify label fun _ hpeer => ⟨hpeer.scrollback, hpeer.closeNote⟩
    | dataRejected => exact (h.onDataRejected replies label).fine
    | sendRejected rejection =>
        cases rejection <;> exact (h.notice label (by decide)).fine
    | closed cause => exact (h.onClosed id label cause).fine

theorem Clean.onOpened (h : self.Clean) (handle : ConnectionHandle) (remote : Text) (outbound : Bool) :
    (self.onOpened handle remote outbound).2.Clean := by
  rcases self.onOpened_cases handle remote outbound with ⟨hopened, -⟩ | hopened
  · rw [hopened]
    exact h
  · rw [hopened]
    refine ⟨?_, ?_, h.sas, h.view, h.input, h.terminal⟩
    · intro label peer hpeer
      by_cases hlabel : label = peerLabel (self.nextLabel + 1)
      · rw [hlabel] at hpeer ⊢
        rw [AList.lookup_insert] at hpeer
        obtain rfl := Option.some.inj hpeer
        exact ⟨clean_peerLabel _, .empty, nofun⟩
      · rw [AList.lookup_insert_ne hlabel] at hpeer
        exact h.peers label peer hpeer
    · intro id label hid
      by_cases heq : id = handle.id
      · rw [heq, AList.lookup_insert] at hid
        obtain rfl := Option.some.inj hid
        exact clean_peerLabel _
      · rw [AList.lookup_insert_ne heq] at hid
        exact h.byId id label hid

theorem Clean.onNetEvent (h : self.Clean) (replies : Replies) (event : NetEvent) :
    Fine (self.onNetEvent replies event).2 := by
  cases event with
  | opened handle remote outbound =>
      have hopened := h.onOpened handle remote outbound
      rw [App.onNetEvent]
      generalize self.onOpened handle remote outbound = opened at hopened ⊢
      obtain ⟨fault | _, app⟩ := opened
      · exact hopened.fine
      · exact (hopened.redrawChat replies).fine
  | dialFailed => exact (h.redrawChat replies).fine
  | listenerStopped =>
      have hstopped : Clean { self with listener := none } :=
        ⟨h.peers, h.byId, h.sas, h.view, h.input, h.terminal⟩
      exact (hstopped.redrawChat replies).fine
  | conn id event =>
      obtain ⟨hclean, hcalls⟩ := h.onConnEvent replies id event
      exact ⟨hclean.redrawChat replies, hcalls⟩

end Events

section Keys

theorem Clean.answerSas (h : self.Clean) (approved : Bool) : Fine (self.answerSas approved) := by
  rw [App.answerSas]
  split
  · exact h.fine
  · next pending sas hsas =>
    refine ⟨⟨h.peers, h.byId, ?_, h.view, h.input, h.terminal⟩, ?_⟩
    · intro pending' hpending'
      exact h.sas pending' (by rw [hsas]; exact List.mem_cons_of_mem _ hpending')
    · intro call hcall
      split at hcall
      · rw [List.mem_singleton.1 hcall]
        exact trivial
      · cases hcall

theorem pushTyped_typed {c : Char} (hc : isControl c = false) {typed : Text} (h : typed.Typed maxTyped) :
    (pushTyped c typed).Typed maxTyped := by
  rw [pushTyped]
  split_ifs with hle
  · exact h.push hle hc
  · exact h

theorem Clean.sasKey (h : self.Clean) (key : KeyEvent) : Fine (self.sasKey key) := by
  rw [App.sasKey]
  split
  · exact h.answerSas _
  · exact h.answerSas false
  · exact (h.editTyped fun _ htyped => htyped.dropLast).fine
  · split
    · next character hcharacter =>
      exact (h.editTyped fun _ htyped => pushTyped_typed (KeyEvent.typed_control hcharacter) htyped).fine
    · exact h.fine

theorem Clean.chatSasKey (h : self.Clean) (key : KeyEvent) : Fine (self.chatSasKey key) := by
  rw [App.chatSasKey]
  split_ifs
  · exact h.answerSas false
  · exact h.sasKey key

theorem length_encode (text : Text) : (text.flatMap String.utf8EncodeChar).length = text.len := by
  rw [List.length_flatMap, Text.len]
  simp

theorem Clean.sendText (h : self.Clean) (replies : Replies) (label text : Text) :
    Fine (self.sendText replies label text).2 := by
  rw [App.sendText]
  split_ifs with hlong
  · exact h.fine
  · split
    · exact h.fine
    · next peer _ =>
      have hcalls : ∀ call ∈ [Call.sendMessage peer.handle.id (text.flatMap String.utf8EncodeChar)], call.Fits := by
        intro call hcall
        rw [List.mem_singleton.1 hcall, Call.Fits, length_encode]
        exact Nat.le_of_not_lt hlong
      split
      · exact ⟨h, hcalls⟩
      · exact ⟨h, hcalls⟩
      · have hspoken := h.modify label fun _ hpeer => hpeer.push .local (ingest_clean (text.flatMap String.utf8EncodeChar))
        exact ⟨⟨hspoken.peers, hspoken.byId, hspoken.sas, hspoken.view, hspoken.input, hspoken.terminal⟩, hcalls⟩

theorem requestRekey_fits (replies : Replies) (label : Text) : ∀ call ∈ (self.requestRekey replies label).2, call.Fits := by
  intro call hcall
  rw [App.requestRekey] at hcall
  split at hcall
  · cases hcall
  · rw [List.mem_singleton.1 hcall]
    exact trivial

theorem Clean.tryEnterChat (h : self.Clean) (replies : Replies) (label : Text) :
    (self.tryEnterChat replies label).Clean := by
  rw [App.tryEnterChat]
  split
  · next peer hpeer _ =>
    have hlabel := (h.peers label peer (connectedPeer_ok hpeer).1).1
    have hseen := h.modify label (f := Peer.seen) fun _ hpeer => ⟨hpeer.scrollback, hpeer.closeNote⟩
    have heq : App.modify { self with terminal := true, defaultTarget := some label, touched := true } label Peer.seen =
        { self.modify label Peer.seen with terminal := true, defaultTarget := some label, touched := true } := by
      rw [App.modify, App.modify]
      dsimp only
      split <;> rfl
    apply Clean.redrawChat
    change Clean { App.modify { self with terminal := true, defaultTarget := some label, touched := true } label
      Peer.seen with mode := .chat { label, input := [], scroll := 0, maxScroll := 0 } }
    rw [heq]
    refine ⟨hseen.peers, hseen.byId, hseen.sas, ?_, hseen.input, iff_of_true rfl ⟨_, rfl⟩⟩
    rintro view ⟨⟩
    exact ⟨hlabel, .nil _⟩
  · exact h

theorem Clean.switchProfile (h : self.Clean) (replies : Replies) (name : Text) (create : Bool) :
    Fine (self.switchProfile replies name create) := by
  rw [App.switchProfile]
  split
  · refine ⟨⟨h.peers, h.byId, h.sas, h.view, h.input, h.terminal⟩, ?_⟩
    intro call hcall
    rw [List.mem_singleton.1 hcall]
    exact trivial
  · exact h.fine

theorem Clean.dispatch (h : self.Clean) (replies : Replies) (line : Text) : Fine (self.dispatch replies line) := by
  have hplain {calls : List Call} (hcalls : ∀ call ∈ calls, call.handle? = none) : ∀ call ∈ calls, call.Fits := by
    intro call hcall
    cases call with
    | sendMessage => cases hcalls _ hcall
    | _ => exact trivial
  rw [App.dispatch]
  split
  · exact h.fine
  · next command _ =>
    cases command with
    | profile command =>
        cases command with
        | init name | use name => exact h.switchProfile replies name _
        | list => exact h.fine
    | start addr =>
        dsimp only
        rw [App.start]
        split_ifs
        · exact h.fine
        · split
          · exact ⟨h, hplain (by simp [Call.handle?])⟩
          · exact ⟨⟨h.peers, h.byId, h.sas, h.view, h.input, h.terminal⟩, hplain (by simp [Call.handle?])⟩
    | stop =>
        dsimp only
        rw [App.stop]
        split
        · exact h.fine
        · exact ⟨⟨h.peers, h.byId, h.sas, h.view, h.input, h.terminal⟩, hplain (by simp [Call.handle?])⟩
    | connect addr =>
        refine ⟨h, hplain ?_⟩
        dsimp only
        rw [App.dial]
        split_ifs <;> simp [Call.handle?]
    | use label =>
        dsimp only
        rw [App.useTarget]
        split
        · exact h.fine
        · exact Clean.fine ⟨h.peers, h.byId, h.sas, h.view, h.input, h.terminal⟩
    | message label text => exact h.sendText replies label text
    | close label =>
        refine ⟨h, ?_⟩
        intro call hcall
        dsimp only at hcall
        rw [App.closeSession] at hcall
        split at hcall
        · cases hcall
        · rw [List.mem_singleton.1 hcall]
          exact trivial
    | rekey label => exact ⟨h, requestRekey_fits replies label⟩
    | chat label =>
        dsimp only
        split
        · exact (h.tryEnterChat replies _).fine
        · exact h.fine
    | quit => exact Clean.fine ⟨h.peers, h.byId, h.sas, h.view, h.input, h.terminal⟩
    | peers | fingerprint | session | tailscale | help => exact h.fine

theorem Clean.replKey (h : self.Clean) (replies : Replies) (key : KeyEvent) : Fine (self.replKey replies key).2 := by
  have hinput {input : Text} (hinput : input.Typed maxContent) : Clean { self with input } :=
    ⟨h.peers, h.byId, h.sas, h.view, hinput, h.terminal⟩
  rw [App.replKey]
  by_cases hquit : key.control ∧ (key.code = .char 'c' ∨ key.code = .char 'd')
  · rw [if_pos hquit]
    exact Clean.fine ⟨h.peers, h.byId, h.sas, h.view, h.input, h.terminal⟩
  · rw [if_neg hquit]
    by_cases hsas : self.sas ≠ []
    · rw [if_pos hsas]
      exact h.sasKey key
    · rw [if_neg hsas]
      split
      · have hline := hinput (.nil maxContent)
        dsimp only
        split
        · exact hline.fine
        · split_ifs
          · exact hline.fine
          · exact hline.dispatch replies _
      · exact (hinput h.input.dropLast).fine
      · split
        · next character hcharacter =>
          split_ifs with hle
          · exact (hinput (h.input.push hle (KeyEvent.typed_control hcharacter))).fine
          · exact h.fine
        · exact h.fine

theorem peer_error_clean (hlabel : label.Clean) {error : Text} (h : self.peer label = .error error) : error.Clean := by
  rw [App.peer] at h
  split at h
  · cases h
  · rw [← Except.error.inj h]
    exact Text.Clean.append (.append (by decide) hlabel) (by decide)

theorem connectedPeer_error_clean (hlabel : label.Clean) {error : Text} (h : self.connectedPeer label = .error error) :
    error.Clean := by
  rw [App.connectedPeer] at h
  cases hpeer : self.peer label with
  | error error' =>
      rw [hpeer] at h
      rw [← Except.error.inj h]
      exact peer_error_clean hlabel hpeer
  | ok peer =>
      rw [hpeer] at h
      change ite .. = _ at h
      split_ifs at h
      · rw [← Except.error.inj h]
        exact Text.Clean.append (.append (by decide) hlabel) (by decide)
      · cases h

theorem sendText_error_clean (hlabel : label.Clean) {error : Text} (h : (self.sendText replies label text).1 = .error error) :
    error.Clean := by
  rw [App.sendText] at h
  split_ifs at h
  · rw [← Except.error.inj h]
    exact Text.Clean.append (.append (by decide) (Text.clean_toDigits _)) (by decide)
  · split at h
    · next hconnected =>
      rw [← Except.error.inj h]
      exact connectedPeer_error_clean hlabel hconnected
    · dsimp only at h
      split at h
      · rw [← Except.error.inj h]
        decide
      · rw [← Except.error.inj h]
        decide
      · cases h

theorem requestRekey_error_clean (hlabel : label.Clean) {error : Text}
    (h : (self.requestRekey replies label).1 = .error error) : error.Clean := by
  rw [App.requestRekey] at h
  split at h
  · next hconnected =>
    rw [← Except.error.inj h]
    exact connectedPeer_error_clean hlabel hconnected
  · cases hhandle : replies.handle with
    | error reply =>
        rw [hhandle] at h
        rw [← Except.error.inj h]
        exact (by decide : Text.Clean "session already closed".toList)
    | ok =>
        rw [hhandle] at h
        cases h

variable {view : ChatView}

theorem Clean.viewed (h : self.Clean) (hmode : self.mode = .chat view) {view' : ChatView}
    (hlabel : view'.label = view.label) (hinput : view'.input.Typed maxContent) :
    Clean { self with mode := .chat view' } := by
  refine ⟨h.peers, h.byId, h.sas, ?_, h.input, iff_of_true (h.terminal.2 ⟨view, hmode⟩) ⟨view', rfl⟩⟩
  rintro view'' ⟨⟩
  rw [hlabel]
  exact ⟨(h.view view hmode).1, hinput⟩

theorem Clean.chatEnter (h : self.Clean) (hmode : self.mode = .chat view) (replies : Replies) :
    Fine (self.chatEnter replies view) := by
  have hemptied : Clean { self with mode := .chat { view with input := [], scroll := 0 } } :=
    h.viewed hmode rfl (.nil maxContent)
  rw [App.chatEnter]
  split_ifs
  · exact hemptied.fine
  · have hsent := hemptied.sendText replies view.label view.input.trim
    cases hreply : App.sendText { self with mode := .chat { view with input := [], scroll := 0 } } replies view.label
        view.input.trim with
    | mk result sent =>
        rw [hreply] at hsent
        cases result with
        | error error =>
            have herror : error.Clean := sendText_error_clean (h.view view hmode).1 (congrArg Prod.fst hreply)
            exact ⟨hsent.1.notice _ (Text.Clean.append (by decide) herror), hsent.2⟩
        | ok => exact hsent

theorem Clean.chatRekey (h : self.Clean) (replies : Replies) {label : Text} (hlabel : label.Clean) :
    Fine (self.chatRekey replies label) := by
  have hcalls : ∀ call ∈ (self.requestRekey replies label).2, call.Fits := requestRekey_fits replies label
  rw [App.chatRekey]
  cases hreply : self.requestRekey replies label with
  | mk result calls =>
      rw [hreply] at hcalls
      cases result with
      | error error =>
          have herror : error.Clean := requestRekey_error_clean hlabel (congrArg Prod.fst hreply)
          exact ⟨h.notice _ (Text.Clean.append (by decide) herror), hcalls⟩
      | ok => exact ⟨h, hcalls⟩

theorem scrollKey_same (keys : KeyMap) (view : ChatView) (key : KeyEvent) :
    (scrollKey keys view key).label = view.label ∧ (scrollKey keys view key).input = view.input := by
  rw [scrollKey]
  split_ifs <;> exact ⟨rfl, rfl⟩

theorem viewKey_typed (keys : KeyMap) (key : KeyEvent) (h : view.input.Typed maxContent) :
    (viewKey keys view key).label = view.label ∧ (viewKey keys view key).input.Typed maxContent := by
  have hscroll : (scrollKey keys view key).label = view.label ∧ (scrollKey keys view key).input.Typed maxContent := by
    obtain ⟨hlabel, hinput⟩ := scrollKey_same keys view key
    rw [hlabel, hinput]
    exact ⟨rfl, h⟩
  rw [viewKey]
  split_ifs
  · exact ⟨rfl, h.dropLast⟩
  · split
    · next character hcharacter =>
      split_ifs with hle
      · exact ⟨rfl, h.push hle (KeyEvent.typed_control hcharacter)⟩
      · exact hscroll
    · exact hscroll

theorem Clean.chatKey (h : self.Clean) (hmode : self.mode = .chat view) (replies : Replies) (key : KeyEvent) :
    Fine (self.chatKey replies view key).2 := by
  have hredraw {app : App} {calls : List Call} (hfine : Fine (app, calls)) : Fine ((app.redrawChat replies).2, calls) :=
    ⟨hfine.1.redrawChat replies, hfine.2⟩
  rw [App.chatKey]
  by_cases hsas : self.sas ≠ []
  · rw [if_pos hsas]
    exact hredraw (h.chatSasKey key)
  · rw [if_neg hsas]
    split_ifs
    · exact h.leaveChat.fine
    · exact hredraw (h.chatEnter hmode replies)
    · exact hredraw (h.chatRekey replies (h.view view hmode).1)
    · obtain ⟨hlabel, hinput⟩ := viewKey_typed self.keys key (h.view view hmode).2
      exact hredraw (h.viewed hmode hlabel hinput).fine

end Keys

theorem Clean.handle (h : self.Clean) (replies : Replies) (input : Input) : Fine (self.handle replies input).2 := by
  cases input with
  | net event => exact h.onNetEvent replies event
  | tick => exact (h.redrawChat replies).fine
  | terminal event =>
      cases event with
      | press key =>
          rw [App.handle, App.onTerminalEvent]
          split
          · next view hmode => exact h.chatKey hmode replies key
          · exact h.replKey replies key
      | resize => exact (h.redrawChat replies).fine
      | other => exact h.fine

theorem clean_new (keys : KeyMap) : (App.new keys).Clean :=
  ⟨nofun, nofun, nofun, nofun, .nil _, by simp [App.new]⟩

structure Shown (app : App) (past : List Turned) : Prop where
  clean : app.Clean
  calls : ∀ turned ∈ past, ∀ call ∈ turned.out.2, call.Fits

theorem shown_new (keys : KeyMap) : (App.new keys).Shown [] :=
  ⟨clean_new keys, fun _ hturned => absurd hturned List.not_mem_nil⟩

theorem Shown.step {past : List Turned} (h : self.Shown past) (turn : Replies × Input) :
    (App.step self turn).1.Shown (past ++ [record App.step self turn]) := by
  obtain ⟨hclean, hcalls⟩ := h.clean.handle turn.1 turn.2
  refine ⟨hclean, ?_⟩
  intro turned hturned
  rcases List.mem_append.1 hturned with hturned | hturned
  · exact h.calls turned hturned
  · rw [List.mem_singleton.1 hturned]
    exact hcalls

theorem reachable_shown (keys : KeyMap) (turns : List (Replies × Input)) :
    (final App.step (App.new keys) turns).Shown (trace App.step (App.new keys) turns) :=
  trace_induction App.step (fun past app => app.Shown past) (App.new keys) (shown_new keys)
    (fun _ _ turn h => h.step turn) turns

end App

/-- Whatever the peers send and whatever is typed, the client keeps no text for
the screen that could steer the terminal, no buffer longer than its bound or
with a control character in it, and the terminal exactly while a chat is open; and it gives
no message to a connection that would be refused for its size. -/
theorem screen_stays_clean (keys : KeyMap) (turns : List (Replies × Input)) :
    let app := final App.step (App.new keys) turns
    (∀ label peer, app.peers.lookup label = some peer → ∀ entry ∈ peer.scrollback.scrollback.entries,
      ∀ c ∈ entry.text, isUnsafe c = false ∧ c ≠ '\t') ∧
    (∀ label peer note, app.peers.lookup label = some peer → peer.closeNote = some note →
      ∀ c ∈ note, isUnsafe c = false ∧ c ≠ '\t') ∧
    (app.input.len ≤ maxContent ∧ ∀ c ∈ app.input, isControl c = false) ∧
    (∀ view, app.mode = .chat view → view.input.len ≤ maxContent ∧ ∀ c ∈ view.input, isControl c = false) ∧
    (∀ pending ∈ app.sas, pending.typed.len ≤ maxTyped ∧ ∀ c ∈ pending.typed, isControl c = false) ∧
    (app.terminal = true ↔ ∃ view, app.mode = .chat view) ∧
    ∀ turned ∈ trace App.step (App.new keys) turns, ∀ id content,
      .sendMessage id content ∈ turned.out.2 → content.length ≤ maxContent := by
  intro app
  obtain ⟨hclean, hcalls⟩ := App.reachable_shown keys turns
  refine ⟨?_, ?_, hclean.input, ?_, ?_, hclean.terminal, ?_⟩
  · exact fun label peer hpeer => (hclean.peers label peer hpeer).2.scrollback
  · exact fun label peer note hpeer => (hclean.peers label peer hpeer).2.closeNote note
  · exact fun view hmode => (hclean.view view hmode).2
  · exact fun pending hpending => (hclean.sas pending hpending).typed
  · exact fun turned hturned id content hcall => hcalls turned hturned _ hcall

end Ruxmsg.Cli
