import Ruxmsg.Machine
import Ruxmsg.Library.Machine

namespace Ruxmsg

open Library.Cbor

/-- The codec of the library in place of the CBOR package. -/
@[reducible] def Ciborium.reference : Ciborium where
  intoWriter v := .ok v.encode
  fromReader bs :=
    match decode bs with
    | some (v, rest) => .ok (v, bs.length - rest.length)
    | none => .error "not a value"

theorem Ciborium.reference_rfc8949 : @Ciborium.Rfc8949 Ciborium.reference := by
  refine @Ciborium.Rfc8949.mk Ciborium.reference ?_ ?_
  · intro v _
    rfl
  · intro v hv _ rest
    have hlen : (v.encode ++ rest).length - rest.length = v.encode.length := by simp
    unfold Ciborium.fromReader Ciborium.reference
    dsimp only
    rw [decode_encode_append v hv rest]
    exact congrArg (fun n => Except.ok (v, n)) hlen

/-- A digest that tells short inputs apart; it stands for every hash and key
derivation where only their being functions matters. -/
def plainDigest (n : Nat) (bs : List UInt8) : Bytes n :=
  ⟨beBytes n (bs.foldl (fun sum b => (sum * 257 + b.toNat + 1) % 2 ^ 256) 0), length_beBytes _ _⟩

theorem length_plainDigest (n : Nat) (bs : List UInt8) : (plainDigest n bs).val.length = n :=
  (plainDigest n bs).property

/-- Primitives without secrecy, for runs on concrete inputs. -/
@[reducible] def Primitives.plain : Primitives where
  sha256 := plainDigest 32
  hmacSha256 key message := plainDigest 32 (key ++ message)
  hkdfExpand salt ikm info length := plainDigest length (salt ++ ikm ++ info)
  verifyingKey secret := secret
  sign secret message := plainDigest 64 (secret.val ++ message)
  isVerifyingKey _ := true
  verifyStrict key message signature := plainDigest 64 (key.val ++ message) = signature
  x25519Public secret := secret
  diffieHellman secret remote :=
    ⟨beBytes 32 (ofBytes secret.val + ofBytes remote.val), length_beBytes _ _⟩
  wasContributory _ := true
  aeadEncrypt key nonce aad message :=
    some (message ++ (plainDigest 16 (key.val ++ nonce.val ++ aad ++ message)).val)
  aeadDecrypt key nonce aad ciphertext :=
    let message := ciphertext.take (ciphertext.length - 16)
    if ciphertext.drop (ciphertext.length - 16) =
        (plainDigest 16 (key.val ++ nonce.val ++ aad ++ message)).val then some message else none
  wordList _ := "word"

theorem Primitives.plain_correct : @Primitives.Correct Primitives.plain := by
  refine @Primitives.Correct.mk Primitives.plain ?_ ?_ ?_ ?_ ?_
  · intro _
    rfl
  · intro secret message
    exact decide_eq_true rfl
  · intro a b
    exact Subtype.ext (congrArg (beBytes 32) (Nat.add_comm _ _))
  · intro key nonce aad message _
    exact ⟨_, rfl, by rw [List.length_append, length_plainDigest]⟩
  · intro key nonce aad message ciphertext h
    obtain rfl := Option.some.inj h
    have hlen : (message ++ (plainDigest 16 (key.val ++ nonce.val ++ aad ++ message)).val).length - 16 =
        message.length := by
      rw [List.length_append, length_plainDigest, Nat.add_sub_cancel]
    unfold Primitives.aeadDecrypt Primitives.plain
    dsimp only
    rw [hlen, List.take_left, List.drop_left, if_pos rfl]

namespace Sample

open Library.Machine

scoped instance : Ciborium := Ciborium.reference

scoped instance : Primitives := Primitives.plain

def entropy (seed : Nat) : Entropy :=
  { fills := fun call length => ⟨beBytes length (seed + call + 1), length_beBytes _ _⟩
    calls := 0 }

def leftIdentity : IdentityKeypair := ⟨Bytes.replicate 32 7⟩

def rightIdentity : IdentityKeypair := ⟨Bytes.replicate 32 9⟩

def dialer : Engine :=
  (Engine.new .initiator leftIdentity (entropy 100)).setRekeyMessageLimit rekeyMessageLimit

def answerer : Engine :=
  (Engine.new .responder rightIdentity (entropy 200)).setRekeyMessageLimit rekeyMessageLimit

/-- Two engines in turn, with what each has been given and the frames in flight. -/
structure Talk where
  left : Engine
  right : Engine
  leftInputs : List Input
  rightInputs : List Input
  toLeft : List Frame
  toRight : List Frame

def frames (effects : List Effect) : List Frame :=
  effects.filterMap fun
    | .send frame => some frame
    | _ => none

theorem mem_frames {frame : Frame} {effects : List Effect} (h : frame ∈ frames effects) : .send frame ∈ effects := by
  obtain ⟨effect, heffect, h⟩ := List.mem_filterMap.1 h
  cases effect with
  | send =>
      obtain rfl := Option.some.inj h
      exact heffect
  | _ => cases h

def questions (effects : List Effect) : List (List String × PeerIdentity) :=
  effects.filterMap fun
    | .requestSas words peer => some (words, peer)
    | _ => none

theorem mem_questions {question : List String × PeerIdentity} {effects : List Effect}
    (h : question ∈ questions effects) : .requestSas question.1 question.2 ∈ effects := by
  obtain ⟨effect, heffect, h⟩ := List.mem_filterMap.1 h
  cases effect with
  | requestSas =>
      obtain rfl := Option.some.inj h
      exact heffect
  | _ => cases h

inductive Turn
  | left (i : Input)
  | right (i : Input)
  | toLeft
  | toRight

def Talk.giveLeft (t : Talk) (i : Input) : Talk :=
  let (left, out) := t.left.handle i
  { t with left, leftInputs := t.leftInputs ++ [i], toRight := t.toRight ++ frames out }

def Talk.giveRight (t : Talk) (i : Input) : Talk :=
  let (right, out) := t.right.handle i
  { t with right, rightInputs := t.rightInputs ++ [i], toLeft := t.toLeft ++ frames out }

def Talk.turn (t : Talk) : Turn → Talk
  | .left i => t.giveLeft i
  | .right i => t.giveRight i
  | .toLeft =>
      match t.toLeft with
      | [] => t
      | frame :: rest => ({ t with toLeft := rest } : Talk).giveLeft (.frameReceived frame)
  | .toRight =>
      match t.toRight with
      | [] => t
      | frame :: rest => ({ t with toRight := rest } : Talk).giveRight (.frameReceived frame)

def Talk.silent : Talk :=
  { left := dialer, right := answerer, leftInputs := [], rightInputs := [], toLeft := [], toRight := [] }

@[irreducible] def handshake : Talk :=
  [.left .start, .right .start, .toRight, .toLeft, .toRight, .left (.sasDecision true),
    .right (.sasDecision true), .toRight, .toLeft, .toRight, .toLeft].foldl Talk.turn Talk.silent

def said : Frame :=
  (frames ((final Engine.handle answerer handshake.rightInputs).handle (.localSend [104, 105])).2).headD
    ⟨.v1, .data, []⟩

/-- A rekey that the left side asks for, with messages under the old session and
the new. -/
@[irreducible] def renewed : Talk :=
  [.left .requestRekey, .toRight, .toLeft, .toRight, .toRight, .toLeft, .left (.localSend [104, 105]), .toRight,
    .toRight, .toLeft, .left (.localSend [111, 107]), .toRight, .right (.localSend [33])].foldl Talk.turn handshake

def received : Input → Option Frame
  | .frameReceived frame => some frame
  | _ => none

theorem received_eq_some {i : Input} {frame : Frame} (h : received i = some frame) : i = .frameReceived frame := by
  cases i with
  | frameReceived other =>
      obtain rfl := Option.some.inj h
      rfl
  | _ => cases h

theorem eq_ok_of_toOption {ε α : Type} {result : Except ε α} {a : α} (h : result.toOption = some a) :
    result = .ok a := by
  cases result with
  | ok b =>
      obtain rfl := Option.some.inj h
      rfl
  | error => cases h

theorem exists_ok {ε α : Type} {result : Except ε α} (h : result.isOk = true) : ∃ a, result = .ok a := by
  cases result with
  | ok a => exact ⟨a, rfl⟩
  | error => cases h

theorem exists_error {ε α : Type} {result : Except ε α} (h : result.isOk = false) : ∃ error, result = .error error := by
  cases result with
  | ok => cases h
  | error error => exact ⟨error, rfl⟩

theorem handshake_established : (final Engine.handle dialer handshake.leftInputs).phase = .established ∧
    (final Engine.handle answerer handshake.rightInputs).phase = .established := by
  decide +kernel

end Sample

end Ruxmsg
