import RdpServer.Sec.Handshake

/-!
# What each check of the handshake establishes

One lemma for each function of the handshake that verifies something: if it
returns, then the property of the messages that it is there to check holds. The parsers of
what a client sends before it is authenticated end on any octets, and read only inside of
what they were given (`nla_parsers_safe`).
-/

namespace RdpServer

open Bytes List Option

section Lookup

variable {user hash : Bytes}

theorem hexOctets_front {n : Nat} {text : Bytes} (read : hexOctets n text = some hash) :
    (text.take (2 * n)).length = 2 * n ∧ hexOctets n (text.take (2 * n)) = some hash := by
  induction n generalizing text hash with
  | zero => exact ⟨by simp, by rw [hexOctets] at read ⊢; exact read⟩
  | succ n ih =>
    rcases text with _ | ⟨a, _ | ⟨b, rest⟩⟩
    · cases read
    · cases read
    · simp only [hexOctets, bind_eq_bind, bind_eq_some_iff] at read
      obtain ⟨hi, high, lo, low_, tail, more, made⟩ := read
      obtain ⟨count, front⟩ := ih more
      have digits : (a :: b :: rest).take (2 * (n + 1)) = a :: b :: rest.take (2 * n) := rfl
      rw [digits]
      refine ⟨by simp only [length_cons]; omega, ?_⟩
      simp only [hexOctets, bind_eq_bind, bind_eq_some_iff]
      exact ⟨hi, high, lo, low_, tail, front, made⟩

theorem split_at_mark {line : Bytes} {mark : UInt8}
    (marked : line.drop (line.takeWhile (· ≠ mark)).length ≠ []) :
    line = line.takeWhile (· ≠ mark) ++
      mark :: line.drop ((line.takeWhile (· ≠ mark)).length + 1) := by
  induction line with
  | nil => exact absurd rfl marked
  | cons c line ih =>
    by_cases here : c = mark
    · subst here
      have none : (c :: line).takeWhile (· ≠ c) = [] := by simp
      rw [none]
      rfl
    · have further : (c :: line).takeWhile (· ≠ mark) = c :: line.takeWhile (· ≠ mark) := by
        simp [here]
      rw [further] at marked
      rw [further, length_cons, drop_succ_cons, cons_append, ← ih marked]

theorem lookupLines_entry {lines : List Bytes} (found : lookupLines user lines = some hash) :
    ∃ line ∈ lines, ∃ blanks digits rest,
      line = user ++ 0x3a :: (blanks ++ digits ++ rest) ∧ (∀ c ∈ blanks, c = 0x20) ∧
        digits.length = 32 ∧ hexOctets 16 digits = some hash := by
  induction lines with
  | nil => cases found
  | cons line lines ih =>
    rw [lookupLines] at found
    by_cases named : line.drop (line.takeWhile (· ≠ 0x3a)).length ≠ [] ∧
        line.takeWhile (· ≠ 0x3a) = user
    · rw [if_pos named] at found
      obtain ⟨some_left, same⟩ := named
      obtain ⟨count, front⟩ := hexOctets_front found
      refine ⟨line, mem_cons_self, (line.drop (user.length + 1)).takeWhile (· = 0x20),
        ((line.drop (user.length + 1)).dropWhile (· = 0x20)).take 32,
        ((line.drop (user.length + 1)).dropWhile (· = 0x20)).drop 32, ?_, ?_, ?_, ?_⟩
      · rw [append_assoc, take_append_drop, takeWhile_append_dropWhile, ← same]
        exact split_at_mark some_left
      · intro c member
        have blank := all_eq_true.1 all_takeWhile c member
        exact of_decide_eq_true blank
      · rw [← same]
        exact count
      · rw [← same]
        exact front
    · rw [if_neg named] at found
      obtain ⟨found_line, member, rest⟩ := ih found
      exact ⟨found_line, mem_cons_of_mem _ member, rest⟩

end Lookup

section Unseal

variable {crypto : Crypto} {rc4 after : Rc4} {signKey input plain : Bytes} {seqNum cap : Nat}

theorem sealed_parts (input : Bytes) :
    input = input.take 4 ++ (input.drop 4).take 8 ++ (input.drop 12).take 4 ++ input.drop 16 := by
  have third : input.drop 12 = (input.drop 12).take 4 ++ input.drop 16 := by
    conv_lhs => rw [← take_append_drop 4 (input.drop 12), drop_drop]
  have second : input.drop 4 = (input.drop 4).take 8 ++ input.drop 12 := by
    conv_lhs => rw [← take_append_drop 8 (input.drop 4), drop_drop]
  rw [append_assoc, append_assoc, ← third, ← second, take_append_drop]

theorem leBytes_of_load {off value : Nat} (long : off + 4 ≤ input.length)
    (denoted : value = leValue ((input.drop off).take 4)) :
    (input.drop off).take 4 = leBytes 4 value := by
  have four : ((input.drop off).take 4).length = 4 := by
    rw [length_take, length_drop]
    omega
  have encoded := leBytes_leValue ((input.drop off).take 4)
  rw [four, ← denoted] at encoded
  exact encoded.symm

theorem ntlmUnsealMessage_unseals
    (opened : ntlmUnsealMessage crypto rc4 signKey seqNum input cap = .ok (plain, after)) :
    Unseals crypto rc4.key signKey rc4.pos seqNum input plain ∧
      after = ⟨rc4.key, rc4.pos + plain.length + 8⟩ := by
  simp only [ntlmUnsealMessage, rdpHmacMd52, bind_eq_ok, refuse_eq_ok, accept_eq_ok, not_or,
    Bool.not_eq_false] at opened
  simp only [rdpRc4Process] at opened
  obtain ⟨_, sized, mac, macMade, version, versionRead, seq, seqRead, _, signed, rfl, rfl⟩ := opened
  obtain ⟨isVersion, isSeq, isMac⟩ := signed
  have checksum : ((input.drop 4).take 8).length = 8 := by
    rw [length_take, length_drop]
    omega
  have macLength := crypto.hmacMd5_length macMade
  have same := (rdpConsttimeEq_iff (by
    rw [length_take, length_mask, macLength, checksum]
    rfl)).1 isMac
  refine ⟨⟨(input.drop 4).take 8, input.drop 16, mac, ?_, rfl, macMade, ?_⟩, ?_⟩
  · have front := @leBytes_of_load input 0 _ (by omega) (ldU32le_eq versionRead)
    have number := leBytes_of_load (by omega) (ldU32le_eq seqRead)
    rw [not_not.1 isVersion] at front
    rw [not_not.1 isSeq] at number
    rw [← front, ← number]
    exact sealed_parts input
  · exact same.symm
  · rw [length_mask, checksum]

end Unseal

section Mic

variable {p : Bytes}

theorem avPairs_end (ended : p.length < 4 ∨ leValue (p.take 2) = Ntlm.msvAvEol ∨
    p.length < 4 + leValue ((p.drop 2).take 2)) : avPairs p = [] := by
  rw [avPairs, if_pos ended]

theorem hasMicLoop_eq {rounds : Nat} (enough : p.length ≤ rounds) :
    hasMicLoop rounds p = .ok (setMicFlag (avPairs p)) := by
  induction rounds generalizing p with
  | zero =>
    rw [avPairs_end (.inl (by omega))]
    rfl
  | succ rounds ih =>
    rw [hasMicLoop]
    by_cases short : p.length < 4
    · rw [if_pos short, avPairs_end (.inl short)]
      rfl
    · have idRead : ldU16le p 0 = .ok (leValue (p.take 2)) :=
        ldU16le_eq_ok.2 ⟨by omega, by rw [drop_zero]⟩
      have lenRead : ldU16le p 2 = .ok (leValue ((p.drop 2).take 2)) :=
        ldU16le_eq_ok.2 ⟨by omega, rfl⟩
      rw [if_neg short, idRead, lenRead]
      simp only [bind, Except.bind]
      by_cases ended : leValue (p.take 2) = Ntlm.msvAvEol ∨
          leValue ((p.drop 2).take 2) > p.length - 4
      · rw [if_pos ended, avPairs_end (.inr (ended.imp_right fun cut => by omega))]
        rfl
      · rw [if_neg ended]
        rw [not_or] at ended
        have whole : 4 + leValue ((p.drop 2).take 2) ≤ p.length := by omega
        rw [avPairs, if_neg (not_or.2 ⟨short, not_or.2 ⟨ended.1, not_lt.2 whole⟩⟩), setMicFlag]
        have size : ((p.drop 4).take (leValue ((p.drop 2).take 2))).length =
            leValue ((p.drop 2).take 2) := by
          rw [length_take, length_drop]
          omega
        by_cases holds : leValue (p.take 2) = Ntlm.msvAvFlags ∧ leValue ((p.drop 2).take 2) ≥ 4
        · have flagsRead : ldU32le p 4 = .ok (leValue ((p.drop 4).take 4)) :=
            ldU32le_eq_ok.2 ⟨by omega, rfl⟩
          rw [if_pos holds, find?_cons_of_pos (by rw [decide_eq_true_eq, size]; exact holds),
            any_some, take_take, min_eq_left holds.2, flagsRead]
          rfl
        · rw [if_neg holds, find?_cons_of_neg (by rw [decide_eq_true_eq, size]; exact holds)]
          exact ih (by rw [length_drop]; omega)

theorem ntlmAuthHasMic_eq {mem authenticate : Bytes} {auth : NtlmAuthenticate}
    (held : AuthenticateIn mem authenticate auth) :
    ntlmAuthHasMic mem auth = .ok (micFlagged (ntResponseOf authenticate)) := by
  unfold ntlmAuthHasMic
  rw [held.ntResponse_len, held.ntResponse]
  by_cases short : (ntResponseOf authenticate).length < 16 + Ntlm.clientChallengeHdr
  · rw [if_pos short, micFlagged, drop_eq_nil_of_le (le_of_lt short), avPairs_end (.inl (by simp))]
    rfl
  · rw [if_neg short]
    exact hasMicLoop_eq (le_rfl)

theorem ntlmVerifyMic_mic {crypto : Crypto} {malloc : Nat → Bool}
    {exported negotiate challenge authenticate : Bytes} {done : Unit}
    (verified : ntlmVerifyMic crypto malloc exported negotiate challenge authenticate = .ok done) :
    crypto.hmacMd5 exported (negotiate ++ challenge ++ withoutMic authenticate) =
      some (micOf authenticate) := by
  simp only [ntlmVerifyMic, rdpHmacMd5, bind_eq_ok, refuse_eq_ok, accept_eq_ok, not_or,
    Bool.not_eq_false] at verified
  obtain ⟨_, ⟨long, _⟩, _, _, mic, made, same⟩ := verified
  have sixteen : ((authenticate.drop Ntlm.authMicOffset).take 16).length = 16 := by
    rw [length_take, length_drop]
    omega
  rw [rdpConsttimeEq_iff ((crypto.hmacMd5_length made).trans sixteen.symm)] at same
  rw [micOf, ← same, ← made]
  rfl

end Mic

section Response

variable {crypto : Crypto} {mem authenticate challenge ntHash baseKey exported : Bytes}
  {auth : NtlmAuthenticate}

theorem ntlmVerifyNtlmv2Hash_proves (held : AuthenticateIn mem authenticate auth)
    (verified : ntlmVerifyNtlmv2Hash crypto mem challenge auth ntHash = .ok baseKey) :
    ProvesHash crypto ntHash challenge authenticate baseKey := by
  simp only [ntlmVerifyNtlmv2Hash, rdpHmacMd5, rdpHmacMd52, bind_eq_ok, refuse_eq_ok, accept_eq_ok,
    held.ntResponse, held.user, held.domain, held.ntResponse_len, Except.ok.injEq,
    exists_eq_left', Bool.not_eq_false] at verified
  obtain ⟨_, long, ntlmv2Hash, hashed, ntProof, proof, _, same, base⟩ := verified
  have sixteen : ((ntResponseOf authenticate).take 16).length = 16 := by
    rw [length_take]
    omega
  rw [rdpConsttimeEq_iff ((crypto.hmacMd5_length proof).trans sixteen.symm)] at same
  exact ⟨ntlmv2Hash, ntProof, hashed, proof, same.symm, base⟩

theorem ntlmDeriveExportedKey_eq (held : AuthenticateIn mem authenticate auth)
    (derived : ntlmDeriveExportedKey crypto mem auth baseKey = .ok exported) :
    exported = exportedKey crypto authenticate baseKey := by
  unfold ntlmDeriveExportedKey at derived
  rw [held.flags] at derived
  rw [exportedKey]
  by_cases exchanged : flagsOf authenticate &&& Ntlm.negotiateKeyExch ≠ 0
  · rw [if_pos exchanged] at derived ⊢
    simp only [rdpRc4New, held.encRandomSkey, bind_eq_ok, pure_eq_ok,
      Except.ok.injEq, exists_eq_left'] at derived
    obtain ⟨_, _, _, ⟨_, _, rfl⟩, rfl⟩ := derived
    rfl
  · rw [if_neg exchanged, pure_eq_ok] at derived
    rw [if_neg exchanged, derived]

end Response

theorem verifyClientBinding_binds {host : NlaHost} {rc4 after : Rc4}
    {signKey pka nonce pubkey : Bytes} {version : Nat}
    (verified : verifyClientBinding host.crypto rc4 signKey version pka nonce pubkey = .ok after) :
    ∃ plain, Unseals host.crypto rc4.key signKey rc4.pos 0 pka plain ∧
      after = ⟨rc4.key, rc4.pos + plain.length + 8⟩ ∧
      if version ≥ 5 ∧ nonce.length ≥ 32 then
        host.crypto.sha256 (clientToServerMagic ++ [0] ++ nonce ++ pubkey) = some plain
      else plain = pubkey := by
  simp only [verifyClientBinding, bind_eq_ok, refuse_eq_ok, pure_eq_ok, not_or, not_not,
    Bool.not_eq_false] at verified
  obtain ⟨⟨plain, last⟩, opened, want, wanted, _, ⟨sized, same⟩, rfl⟩ := verified
  obtain ⟨unseals, moved⟩ := ntlmUnsealMessage_unseals opened
  rw [rdpConsttimeEq_iff sized] at same
  refine ⟨plain, unseals, moved, ?_⟩
  unfold clientBinding at wanted
  by_cases hashed : version ≥ 5 ∧ nonce.length ≥ 32
  · rw [if_pos hashed] at wanted ⊢
    rw [bindingHash, accept_eq_ok] at wanted
    rw [wanted, ← same]
  · rw [if_neg hashed, pure_eq_ok] at wanted
    rw [if_neg hashed, wanted, ← same]

variable {p : Bytes} {off : Nat}

/-- The fields that are there lie in the first `size` octets. -/
def AllInside (fields : List (Option Slice)) (size : Nat) : Prop :=
  ∀ field ∈ fields, ∀ s ∈ field, s.Inside size

def TsCredentials.fields (creds : TsCredentials) : List (Option Slice) :=
  [creds.domainUtf16, creds.userUtf16, creds.passwordUtf16]

theorem ensures_tsCredsOuterRound {out : TsCredsOuter}
    (held : ∀ s ∈ out.credsBlob, s.Inside p.length) (more : off < p.length) :
    Ensures (tsCredsOuterRound p off out) fun next =>
      off < next.1 ∧ ∀ s ∈ next.2.credsBlob, s.Inside p.length := by
  refine (ensures_load more).bind fun tag _ => ?_
  split_ifs
  · exact (ensures_readCtxInteger _ _ _).bind fun _ forward => ensures_ok ⟨forward, held⟩
  · refine (ensures_readCtxOctetString _ _ _).bind fun _ od => ensures_ok ⟨od.1, ?_⟩
    simpa using od.2
  · exact (ensures_skipElement _).bind fun _ used => ensures_ok ⟨by simp only; omega, held⟩

theorem ensures_tsPasswordRound {blob : Slice} (inside : blob.Inside p.length)
    {out : TsCredentials} (held : AllInside out.fields p.length)
    (more : off < (blob.octets p).length) :
    Ensures (tsPasswordRound blob.off (blob.octets p) off out) fun next =>
      off < next.1 ∧ AllInside next.2.fields p.length := by
  refine (ensures_load more).bind fun tag _ => (ensures_refuse _).bind fun _ _ =>
    (ensures_readCtxOctetString _ _ _).bind fun od bound => ensures_ok ⟨bound.1, ?_⟩
  have part := bound.2.shift inside
  simp only [AllInside, TsCredentials.fields] at held ⊢
  split_ifs <;> simp_all

theorem ensures_rdpCsspParseTscredentials (p : Bytes) :
    Ensures (rdpCsspParseTscredentials p) fun creds => AllInside creds.fields p.length := by
  refine (ensures_berReadHeader _ _).bind fun _ _ =>
    (ensures_scan (fun _ _ more held => ensures_tsCredsOuterRound held more) ?_).bind fun _ held =>
    (ensures_refuse _).bind fun _ _ => (ensures_accept _).bind fun blob found => ?_
  · intro s member
    cases member
  have inside := held blob found
  refine (Slice.ensures_fetch inside).bind fun octets same => ?_
  subst same
  refine (ensures_berReadHeader _ _).bind fun _ _ =>
    ensures_scan (fun _ _ more held => ensures_tsPasswordRound inside held more) ?_
  simp [AllInside, TsCredentials.fields]

def NtlmAuthenticate.fields (auth : NtlmAuthenticate) : List (Option Slice) :=
  [auth.lmResponse, auth.ntResponse, auth.domainUtf16, auth.userUtf16, auth.workstationUtf16,
    auth.encRandomSkey, auth.mic]

theorem ensures_ld {n : Nat} (inside : off + n ≤ p.length) :
    Ensures (Slice.fetch ⟨off, n⟩ p >>= fun octets => (pure (leValue octets) : Checked Nat))
      fun _ => True :=
  (Slice.ensures_fetch (s := ⟨off, n⟩) inside).bind fun _ _ => ensures_ok trivial

theorem ensures_parseField (p : Bytes) (off : Nat) :
    Ensures (parseField 0 p off) fun field => ∀ s ∈ field, s.Inside p.length := by
  refine (ensures_refuse _).bind fun _ room => (ensures_ld (by omega)).bind fun flen _ =>
    (ensures_ld (by omega)).bind fun foff _ => ?_
  split_ifs
  · exact ensures_ok (by simp)
  · refine (ensures_refuse _).bind fun _ within => ensures_ok ?_
    simp [Slice.Inside]
    omega

theorem ensures_ntlmParseAuthenticate (p : Bytes) :
    Ensures (ntlmParseAuthenticate 0 p) fun auth => AllInside auth.fields p.length := by
  refine (ensures_refuse _).bind fun _ long => (ensures_refuse _).bind fun _ _ =>
    (ensures_ld (by omega)).bind fun _ _ => (ensures_refuse _).bind fun _ _ =>
    (ensures_parseField p _).bind fun _ lm => (ensures_parseField p _).bind fun _ nt =>
    (ensures_parseField p _).bind fun _ domain => (ensures_parseField p _).bind fun _ user =>
    (ensures_parseField p _).bind fun _ ws => (ensures_parseField p _).bind fun _ enc =>
    (ensures_ld (by omega)).bind fun _ _ => ensures_ok ?_
  simp only [AllInside, NtlmAuthenticate.fields, List.forall_mem_cons]
  refine ⟨lm, nt, domain, user, ws, enc, ?_, by simp⟩
  split_ifs with mic
  · simpa [Slice.Inside] using mic
  · simp

/-- **The parsers before the authentication are safe**, on any octets. The loop over the AV
pairs of a parsed message returns what the pairs say, so that its rounds are enough. -/
theorem nla_parsers_safe (p : Bytes) :
    Ensures (rdpCsspParse p) (fun req => req.Inside p.length) ∧
    Ensures (rdpCsspParseTscredentials p) (fun creds => AllInside creds.fields p.length) ∧
    Ensures (ntlmParseAuthenticate 0 p) (fun auth => AllInside auth.fields p.length ∧
      ntlmAuthHasMic p auth = .ok (micFlagged (ntResponseOf p))) := by
  refine ⟨ensures_rdpCsspParse p, ensures_rdpCsspParseTscredentials p, ?_⟩
  have parses := ensures_ntlmParseAuthenticate p
  refine ⟨parses.1, fun auth parsed => ⟨parses.2 auth parsed, ?_⟩⟩
  have whole : Slice.octets ⟨0, p.length⟩ p = p := List.take_length
  have held := @ntlmParseAuthenticate_in p ⟨0, p.length⟩ auth
    (le_of_eq (Nat.zero_add _)) (by rw [whole]; exact parsed)
  rw [whole] at held
  exact ntlmAuthHasMic_eq held

end RdpServer
