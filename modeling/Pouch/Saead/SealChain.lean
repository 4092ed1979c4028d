import Pouch.Saead.BlockChain

set_option autoImplicit false

/-!
# Sealed blocks as a chain

What a session makes of one payload after the other, and what any receiver makes of that which is in step with the
session at the first block.
-/

namespace Pouch

open ByteMemory

def sizedBlock (payload : List UInt8) : List UInt8 := putBe16 payload.length ++ payload

inductive SealChain {Key : Type} (aead : Aead Key) (role : PouchRole) :
    Session Key → List (List UInt8) → List (List UInt8) → Session Key → Prop
  | nil (session : Session Key) : SealChain aead role session [] [] session
  | snoc {first last : Session Key} {payloads frames : List (List UInt8)}
      (chain : SealChain aead role first payloads frames last) (key : Key) (held : last.key = some key)
      (payload : List UInt8) :
      SealChain aead role first (payloads ++ [payload])
        (frames ++ [sizedBlock (aead.encrypt (last.aeadCall role key payload))])
        (last.advance (aead.tag (last.aeadCall role key payload)))

def Aead.Implemented {Key : Type} (aead : Aead Key) (psa : PsaAead Key) : Prop :=
  ∀ call output, psa call = some output → output = aead.encrypt call

section Sealing

variable {Key : Type} {cfg : Config} {aead : Aead Key} {role : PouchRole} {psa : PsaAead Key}

theorem sealBlock_refused (memory : Memory) (session : Session Key) (key : Key) (block : PouchBuf)
    (payload : List UInt8) (small : payload.length < 65536) (contents : block.contents = sizedBlock payload)
    (held : session.key = some key) (fails : psa (session.aeadCall role key payload) = none) :
    sealBlock cfg role (some memory) psa session block = session.fail none := by
  have fits := (Handed.of_contents cfg _ payload contents (by omega)).fits
  have start := Bufview.At.start block
  rw [contents, sizedBlock] at start
  obtain ⟨size, payloadAt⟩ := start.readBe16_put _ fits
  rw [Nat.mod_eq_of_lt small] at size
  have available := payloadAt.available fits
  have input := payloadAt.loaded
  simp only [sealBlock, bufAlloc, Option.map_some, size, available, ne_eq, not_true, if_false, held,
    payloadAt.read fits _ (Nat.le_refl _), Option.getD_some, input, fails]

variable (cfg) in
theorem sealBlock_chain {first session : Session Key} {payloads frames : List (List UInt8)}
    (chain : SealChain aead role first payloads frames session) (implemented : aead.Implemented psa)
    (malloc : Option Memory) (block : PouchBuf) (payload : List UInt8) (small : payload.length < 65536)
    (contents : block.contents = sizedBlock payload) :
    let outcome := sealBlock cfg role malloc psa session block
    outcome.block = none ∧ outcome.session = session ∨
      ∃ buf frame, outcome.block = some buf ∧ buf.contents = frame ∧
        SealChain aead role first (payloads ++ [payload]) (frames ++ [frame]) outcome.session := by
  intro outcome
  rcases sealBlock_cases outcome rfl with ⟨same, refused, _⟩ | ⟨key, input, output, buf, held, _, _, result, _⟩
  · exact .inl ⟨refused, same⟩
  · cases malloc with
    | none =>
      have unsealed : outcome.block = none := rfl
      rw [result] at unsealed
      cases unsealed
    | some memory =>
      cases called : psa (session.aeadCall role key payload) with
      | none =>
        have refused : outcome = session.fail none :=
          sealBlock_refused memory session key block payload small contents held called
        exact .inl ⟨by rw [refused, Session.fail], by rw [refused, Session.fail]⟩
      | some output =>
        obtain rfl := implemented _ _ called
        obtain ⟨buf, isSealed, framed⟩ := sealBlock_framed cfg memory payload _ key small contents held called
          (aead.tagged _)
        have isOutcome : outcome = _ := isSealed
        rw [isOutcome]
        exact .inr ⟨buf, _, rfl, framed, chain.snoc key held payload⟩

end Sealing

section Opening

variable {Key : Type} (cfg : Config) (aead : Aead Key) (role : PouchRole)

def openFrame (session : Session Key) (frame : List UInt8) : Session Key × List (Option (List UInt8)) :=
  let opened := openBlock cfg role (some fun _ => 0) aead.decrypt session (PouchBuf.ofList frame)
  (opened.session, [opened.block.map PouchBuf.contents])

def openFrames (session : Session Key) (frames : List (List UInt8)) : History (Session Key) (Option (List UInt8)) :=
  History.run (openFrame cfg aead role) ⟨session, []⟩ frames

variable {cfg aead role}

theorem SealChain.opened {first last : Session Key} {payloads frames : List (List UInt8)}
    (chain : SealChain aead role first payloads frames last) (receiver : Session Key)
    (inStep : InStep first receiver)
    (lengths : ∀ payload ∈ payloads, 1 ≤ payload.length ∧ payload.length + 16 < 65536) :
    (openFrames cfg aead role receiver frames).log = payloads.map (fun payload => some (sizedBlock payload)) ∧
      InStep last (openFrames cfg aead role receiver frames).state := by
  induction chain with
  | nil => exact ⟨rfl, inStep⟩
  | @snoc last payloads frames chain key held payload ih =>
    obtain ⟨filled, short⟩ := lengths payload (by simp)
    obtain ⟨opened, stands⟩ := ih fun other member => lengths other (List.mem_append_left _ member)
    let call := last.aeadCall role key payload
    have tagged : (aead.encrypt call).length = payload.length + 16 := aead.tagged call
    have decrypted : aead.decrypt
        ((openFrames cfg aead role receiver frames).state.aeadCall role key (aead.encrypt call)) = some payload := by
      rw [← stands.aeadCall role key]
      exact aead.inverts call
    obtain ⟨out, isOpen, plaintext⟩ := openBlock_framed cfg (fun _ => 0) (aead.encrypt call) payload key
      (by omega) (by omega) (PouchBuf.ofList_contents (sizedBlock (aead.encrypt call)))
      (stands.key.symm.trans held) decrypted (by omega)
    have stepped : openFrames cfg aead role receiver (frames ++ [sizedBlock (aead.encrypt call)]) =
        History.record (openFrame cfg aead role) (openFrames cfg aead role receiver frames)
          (sizedBlock (aead.encrypt call)) := History.run_append _ _ _ _
    rw [stepped]
    simp only [History.record, openFrame, isOpen, Option.map_some, plaintext]
    constructor
    · rw [opened, List.map_append]
      rfl
    · exact (stands.advance (aead.tag call) (aead.tag_length call)).1

end Opening

end Pouch
