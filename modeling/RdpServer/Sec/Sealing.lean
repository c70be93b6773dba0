import RdpServer.Sec.NtlmChecks

/-!
# Sealing and unsealing

`ntlm_seal_message` makes a cipher of its own for each message, while a client seals its messages
one after another on a running cipher. Both seal a message that opens at the position of the
keystream it was sealed at (`sealOn_unseals`), and `ntlm_unseal_message` accepts exactly what
opens there.
-/

namespace RdpServer

open Bytes List

/-- A message sealed on a running cipher: `ntlm_seal_message` without the cipher of its own. -/
def sealOn (crypto : Crypto) (rc4 : Rc4) (signKey : Bytes) (seqNum : Nat)
    (msg : Bytes) : Checked (Bytes × Rc4) := do
  let mac ← rdpHmacMd5 crypto signKey (leBytes 4 seqNum ++ msg)
  let (body, rc4) := rdpRc4Process crypto rc4 msg
  let (checksum, rc4) := rdpRc4Process crypto rc4 (mac.take 8)
  pure (leBytes 4 1 ++ checksum ++ leBytes 4 seqNum ++ body, rc4)

/-- The sequence number is a `uint32_t`. -/
def nextSeq (seqNum : Nat) : Nat := (seqNum + 1) % 2 ^ 32

/-- Messages sealed one after another on one running cipher. -/
def sealAll (crypto : Crypto) (signKey : Bytes) :
    Rc4 → Nat → List Bytes → Checked (List Bytes)
  | _, _, [] => pure []
  | rc4, seqNum, msg :: rest => do
    let (sealed, rc4) ← sealOn crypto rc4 signKey seqNum msg
    let more ← sealAll crypto signKey rc4 (nextSeq seqNum) rest
    pure (sealed :: more)

/-- `ntlm_unseal_message` on one message after the other, each into a buffer of `outCap` octets. -/
def unsealAll (crypto : Crypto) (signKey : Bytes) (outCap : Nat) :
    Rc4 → Nat → List Bytes → Checked (List Bytes)
  | _, _, [] => pure []
  | rc4, seqNum, input :: rest => do
    let (msg, rc4) ← ntlmUnsealMessage crypto rc4 signKey seqNum input outCap
    let more ← unsealAll crypto signKey outCap rc4 (nextSeq seqNum) rest
    pure (msg :: more)

section Message

variable {crypto : Crypto} {rc4 after : Rc4} {sealKey signKey sealed msg : Bytes}
  {seqNum outCap : Nat}

theorem sealOn_eq_ok : sealOn crypto rc4 signKey seqNum msg = .ok (sealed, after) ↔
    ∃ mac, crypto.hmacMd5 signKey (leBytes 4 seqNum ++ msg) = some mac ∧
      leBytes 4 1 ++ mask (crypto.rc4Stream rc4.key) (rc4.pos + msg.length) (mac.take 8) ++
        leBytes 4 seqNum ++ mask (crypto.rc4Stream rc4.key) rc4.pos msg = sealed ∧
      ⟨rc4.key, rc4.pos + msg.length + (mac.take 8).length⟩ = after := by
  simp only [sealOn, rdpHmacMd5, rdpRc4Process, bind_eq_ok, accept_eq_ok, pure_eq_ok, Prod.mk.injEq]

theorem sealOn_complete (rc4 : Rc4) {mac : Bytes}
    (hashed : crypto.hmacMd5 signKey (leBytes 4 seqNum ++ msg) = some mac) :
    ∃ sealed after, sealOn crypto rc4 signKey seqNum msg = .ok (sealed, after) :=
  ⟨_, _, sealOn_eq_ok.2 ⟨mac, hashed, rfl, rfl⟩⟩

theorem sealOn_unseals (made : sealOn crypto rc4 signKey seqNum msg = .ok (sealed, after)) :
    Unseals crypto rc4.key signKey rc4.pos seqNum sealed msg ∧
      after = ⟨rc4.key, rc4.pos + msg.length + 8⟩ := by
  obtain ⟨mac, hashed, rfl, rfl⟩ := sealOn_eq_ok.1 made
  refine ⟨⟨_, _, mac, rfl, by simp, hashed, by simp⟩, ?_⟩
  rw [length_take, crypto.hmacMd5_length hashed]
  rfl

theorem ntlmSealMessage_eq_ok :
    ntlmSealMessage crypto sealKey signKey seqNum msg outCap = .ok sealed ↔
      (16 + msg.length ≤ outCap ∧ msg.length ≤ 8192) ∧
      ∃ fresh after, rdpRc4New crypto sealKey = .ok fresh ∧
        sealOn crypto fresh signKey seqNum msg = .ok (sealed, after) := by
  simp only [ntlmSealMessage, rdpHmacMd5, rdpRc4New, rdpRc4Process, bind_eq_ok, refuse_eq_ok,
    accept_eq_ok, pure_eq_ok, not_or, not_lt, sealOn_eq_ok]
  constructor
  · rintro ⟨_, fits, mac, hashed, _, ⟨done, ready, rfl⟩, rfl⟩
    exact ⟨fits, _, _, ⟨done, ready, rfl⟩, mac, hashed, rfl, rfl⟩
  · rintro ⟨fits, fresh, _, ⟨done, ready, rfl⟩, mac, hashed, rfl, rfl⟩
    exact ⟨(), fits, mac, hashed, _, ⟨done, ready, rfl⟩, rfl⟩

theorem length_of_mask_mac {checksum mac : Bytes} {pos : Nat} (length : mac.length = 16)
    (same : mask (crypto.rc4Stream sealKey) pos checksum = mac.take 8) : checksum.length = 8 := by
  have lengths := congrArg List.length same
  rw [length_mask, length_take, length] at lengths
  exact lengths

/-- The four parts of a sealed message are found at their offsets. -/
theorem sealed_split {checksum : Bytes} (eight : checksum.length = 8) (seqNum : Nat)
    (body : Bytes) :
    let sealed := leBytes 4 1 ++ checksum ++ leBytes 4 seqNum ++ body
    sealed.length = 16 + body.length ∧ sealed.take 4 = leBytes 4 1 ∧
      (sealed.drop 4).take 8 = checksum ∧ (sealed.drop 12).take 4 = leBytes 4 seqNum ∧
      sealed.drop 16 = body := by
  refine ⟨?_, ?_, ?_, ?_, ?_⟩
  · simp only [length_append, length_leBytes, eight]
  · simp
  · simp [eight]
  · rw [append_assoc, drop_left' (by simp only [length_append, length_leBytes, eight]),
      take_left' (length_leBytes 4 seqNum)]
  · exact drop_left' (by simp only [length_append, length_leBytes, eight])

/-- **What opens is accepted**, and leaves the cipher behind the checksum. -/
theorem ntlmUnsealMessage_of_unseals (narrow : seqNum < 2 ^ 32)
    (opens : Unseals crypto rc4.key signKey rc4.pos seqNum sealed msg)
    (room : msg.length ≤ outCap) :
    ntlmUnsealMessage crypto rc4 signKey seqNum sealed outCap =
      .ok (msg, ⟨rc4.key, rc4.pos + msg.length + 8⟩) := by
  obtain ⟨checksum, body, mac, shape, rfl, hashed, same⟩ := opens
  have eight := length_of_mask_mac (crypto.hmacMd5_length hashed) same
  obtain ⟨long, version, field, number, rest⟩ := sealed_split eight seqNum body
  rw [← shape] at long version field number rest
  rw [length_mask] at room
  have signed : rdpConsttimeEq (mac.take 8)
      (mask (crypto.rc4Stream rc4.key) (rc4.pos + body.length) checksum) = true := by
    rw [same]
    exact (rdpConsttimeEq_iff rfl).2 rfl
  simp only [ntlmUnsealMessage, rdpHmacMd52, rdpRc4Process, field, rest, bind_eq_ok, refuse_eq_ok,
    accept_eq_ok, pure_eq_ok, ldU32le_eq_ok, Prod.mk.injEq, true_and]
  refine ⟨(), by omega, mac, hashed, 1, ⟨by omega, ?_⟩, seqNum, ⟨by omega, ?_⟩, (), ?_, ?_⟩
  · rw [drop_zero, version]
    rfl
  · rw [number]
    exact leValue_leBytes 4 seqNum narrow
  · simp [signed]
  · rw [eight, length_mask]

end Message

section Stream

variable {crypto : Crypto} {signKey : Bytes} {outCap : Nat}

theorem nextSeq_lt (seqNum : Nat) : nextSeq seqNum < 2 ^ 32 := Nat.mod_lt _ (by decide)

/-- The two ends of a stream stay in step: the cipher of each moves by the message and its
checksum, which are as long as the sealed message without its header says. -/
theorem unsealAll_sealAll {rc4 : Rc4} {seqNum : Nat} {msgs sealed : List Bytes}
    (narrow : seqNum < 2 ^ 32) (room : ∀ msg ∈ msgs, msg.length ≤ outCap)
    (made : sealAll crypto signKey rc4 seqNum msgs = .ok sealed) :
    unsealAll crypto signKey outCap rc4 seqNum sealed = .ok msgs := by
  induction msgs generalizing rc4 seqNum sealed with
  | nil =>
    cases made
    rfl
  | cons msg rest ih =>
    simp only [sealAll, bind_eq_ok, pure_eq_ok] at made
    obtain ⟨⟨first, after⟩, sealedFirst, more, sealedMore, rfl⟩ := made
    obtain ⟨opens, rfl⟩ := sealOn_unseals sealedFirst
    have fits := forall_mem_cons.1 room
    simp only [unsealAll, bind_eq_ok, pure_eq_ok]
    exact ⟨_, ntlmUnsealMessage_of_unseals narrow opens fits.1, rest,
      ih (nextSeq_lt seqNum) fits.2 sealedMore, rfl⟩

/-- Sealing a stream succeeds if the HMAC does. -/
theorem sealAll_complete (computes : ∀ data, ∃ mac, crypto.hmacMd5 signKey data = some mac)
    (rc4 : Rc4) (seqNum : Nat) (msgs : List Bytes) :
    ∃ sealed, sealAll crypto signKey rc4 seqNum msgs = .ok sealed := by
  induction msgs generalizing rc4 seqNum with
  | nil => exact ⟨[], rfl⟩
  | cons msg rest ih =>
    obtain ⟨mac, hashed⟩ := computes (leBytes 4 seqNum ++ msg)
    obtain ⟨sealed, after, first⟩ := sealOn_complete rc4 hashed
    obtain ⟨more, sealedMore⟩ := ih after (nextSeq seqNum)
    refine ⟨sealed :: more, ?_⟩
    simp only [sealAll, bind_eq_ok, pure_eq_ok]
    exact ⟨_, first, more, sealedMore, rfl⟩

end Stream

/-- **Sealing.** Whatever the keystream and the HMAC are: what `ntlm_seal_message` makes of a
message opens on a fresh cipher; messages sealed one after another on a running cipher open one
after another on a running cipher; and what is accepted carries version 1, the expected sequence
number and the front of the HMAC of the message. -/
theorem ntlm_sealing (crypto : Crypto) (sealKey signKey : Bytes) :
    (∀ seqNum < 2 ^ 32, ∀ msg outCap, msg.length ≤ 8192 → 16 + msg.length ≤ outCap →
      (crypto.hmacMd5 signKey (leBytes 4 seqNum ++ msg)).isSome → crypto.rc4Ready sealKey = true →
      ∃ sealed fresh, ntlmSealMessage crypto sealKey signKey seqNum msg outCap = .ok sealed ∧
        rdpRc4New crypto sealKey = .ok fresh ∧
        ∀ room, msg.length ≤ room → ∃ after,
          ntlmUnsealMessage crypto fresh signKey seqNum sealed room = .ok (msg, after)) ∧
    (∀ rc4 msgs, (∀ data, ∃ mac, crypto.hmacMd5 signKey data = some mac) →
      ∃ sealed, sealAll crypto signKey rc4 0 msgs = .ok sealed ∧
        ∀ room, (∀ msg ∈ msgs, msg.length ≤ room) →
          unsealAll crypto signKey room rc4 0 sealed = .ok msgs) ∧
    (∀ rc4 after, ∀ seqNum < 2 ^ 32, ∀ input msg room,
      ntlmUnsealMessage crypto rc4 signKey seqNum input room = .ok (msg, after) →
      leValue (input.take 4) = 1 ∧ leValue ((input.drop 12).take 4) = seqNum ∧
      ∃ mac, crypto.hmacMd5 signKey (leBytes 4 seqNum ++ msg) = some mac ∧
        mask (crypto.rc4Stream rc4.key) (rc4.pos + msg.length) ((input.drop 4).take 8) =
          mac.take 8) := by
  refine ⟨?_, ?_, ?_⟩
  · intro seqNum narrow msg outCap short fits hashes ready
    obtain ⟨mac, hashed⟩ := Option.isSome_iff_exists.1 hashes
    have made : rdpRc4New crypto sealKey = .ok ⟨sealKey, 0⟩ := by
      simp only [rdpRc4New, refuse, ready, Bool.true_eq_false, ↓reduceIte]
      rfl
    obtain ⟨sealed, after, first⟩ := sealOn_complete ⟨sealKey, 0⟩ hashed
    refine ⟨sealed, _, ntlmSealMessage_eq_ok.2 ⟨⟨fits, short⟩, _, _, made, first⟩, made, ?_⟩
    intro room enough
    exact ⟨_, ntlmUnsealMessage_of_unseals narrow (sealOn_unseals first).1 enough⟩
  · intro rc4 msgs computes
    obtain ⟨sealed, made⟩ := sealAll_complete computes rc4 0 msgs
    exact ⟨sealed, made, fun room fits => unsealAll_sealAll (by decide) fits made⟩
  · intro rc4 after seqNum narrow input msg room opened
    obtain ⟨checksum, body, mac, rfl, rfl, hashed, same⟩ := (ntlmUnsealMessage_unseals opened).1
    have eight := length_of_mask_mac (crypto.hmacMd5_length hashed) same
    obtain ⟨_, version, field, number, _⟩ := sealed_split eight seqNum body
    rw [version, number, field, length_mask]
    exact ⟨rfl, leValue_leBytes 4 seqNum narrow, mac, hashed, same⟩

end RdpServer
