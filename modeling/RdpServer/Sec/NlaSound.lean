import RdpServer.Sec.NtlmChecks

/-!
# Soundness of the CredSSP server

Whatever the client sends, a server that accepts has seen a sound handshake
(`rdpNlaServer_sound`). A client of version 5 or later is bound by the hash over a nonce exactly
if it sent one (`hashBound_iff`); without it the server falls back on the raw public key.
-/

variable {first second : TsFields}

variable {nonce : Bytes}

namespace RdpServer

open Bytes

variable {host : NlaHost} {client : Bytes}

structure Challenged (host : NlaHost) (message : Bytes) (fields : TsFields)
    (st : NlaChallenged) : Prop where
  message : TsMessage message fields
  negotiated : fields.negoToken = some st.negMsg
  nonce : st.savedNonce = (keptNonce fields.clientNonce).getD []
  fresh : (st.chal.drop 24).take 8 = host.challenge
  sent : rdpCsspBuild nlaMaxTsreq { version := fields.version, negoToken := st.chal } = some st.sent

theorem nlaNegotiate_challenged {st : NlaChallenged} (ok : nlaNegotiate host client = .ok st) :
    ∃ message fields, client = message ++ st.input.client ∧ Challenged host message fields st := by
  simp only [nlaNegotiate, bind_eq_ok, refuse_eq_ok, pure_eq_ok] at ok
  obtain ⟨input, read, req, parsed, token, present, negMsg, fetched, flags, _, _, _, nonce, taken,
    chal, built, out, made, _, _, rfl⟩ := ok
  obtain ⟨message, split, front⟩ := readTsrequest_front read
  obtain ⟨isMessage, inside⟩ := front.parsed parsed
  rw [accept_eq_ok] at built made
  simp only [ntlmBuildChallenge, Option.ite_none_left_eq_some, Option.some.injEq] at built
  exact ⟨message, req.fields message, split,
    { message := isMessage
      negotiated := (front.field inside.negoToken present fetched).1
      nonce := front.takeNonce inside.clientNonce taken
      fresh := by
        rw [← built.2, List.append_assoc, List.drop_left' (length_ntlmChallengeHead _ _),
          List.take_left' host.challenge_length]
      sent := made }⟩

section Authenticate

variable {st : NlaChallenged} {mem : Bytes} {token : Slice} {exported : Bytes}

structure Authenticated (host : NlaHost) (st : NlaChallenged)
    (authenticate ntHash baseKey : Bytes) : Prop where
  known : HashEntry host.nthashes (ntlmName (userOf authenticate)) ntHash
  proved : ProvesHash host.crypto ntHash host.challenge authenticate baseKey
  intact : micFlagged (ntResponseOf authenticate) = true →
    host.crypto.hmacMd5 (exportedKey host.crypto authenticate baseKey)
      (st.negMsg ++ st.chal ++ withoutMic authenticate) = some (micOf authenticate)

theorem nlaVerifyAuthenticate_authenticated
    (ok : nlaVerifyAuthenticate host st mem token = .ok exported) :
    ∃ ntHash baseKey, exported = exportedKey host.crypto (token.octets mem) baseKey ∧
      Authenticated host st (token.octets mem) ntHash baseKey := by
  simp only [nlaVerifyAuthenticate, bind_eq_ok] at ok
  obtain ⟨authMsg, fetched, auth, parsed, user, named, ntHash, found, baseKey, verified, key,
    derived, flag, flagged, ok⟩ := ok
  rw [Slice.fetch_eq_ok] at fetched
  obtain ⟨inside, rfl⟩ := fetched
  have held := ntlmParseAuthenticate_in inside parsed
  rw [held.user, Except.ok.injEq] at named
  rw [accept_eq_ok, ← named] at found
  have isFlag := (Except.ok.inj ((ntlmAuthHasMic_eq held).symm.trans flagged)).symm
  have isKey := ntlmDeriveExportedKey_eq held derived
  rw [lookupNthash, Option.bind_eq_bind, Option.bind_eq_some_iff] at found
  obtain ⟨file, opened, found⟩ := found
  have known : HashEntry host.nthashes _ ntHash := ⟨file, opened, lookupLines_entry found⟩
  have proved := ntlmVerifyNtlmv2Hash_proves held verified
  refine ⟨ntHash, baseKey, ?_⟩
  cases flag with
  | false =>
    rw [if_neg Bool.false_ne_true, pure_eq_ok] at ok
    refine ⟨ok.symm.trans isKey, known, proved, ?_⟩
    intro absurd
    rw [← isFlag] at absurd
    cases absurd
  | true =>
    rw [if_pos rfl] at ok
    simp only [bind_eq_ok, pure_eq_ok, Slice.fetch_eq_ok] at ok
    obtain ⟨_, ⟨_, rfl⟩, _, mic, rfl⟩ := ok
    refine ⟨isKey, known, proved, fun _ => ?_⟩
    rw [← isKey]
    exact ntlmVerifyMic_mic mic

end Authenticate

section Binding

variable {st : NlaChallenged}

theorem handshakeNonce_eq (first second : TsFields) :
    handshakeNonce first second =
      (keptNonce first.clientNonce).or (keptNonce second.clientNonce) := by
  rw [handshakeNonce, Option.map_or]
  rfl

theorem usedNonce_eq {saved late : Bytes}
    (isSaved : saved = (keptNonce first.clientNonce).getD [])
    (isLate : late = (keptNonce second.clientNonce).getD []) :
    (if saved.length = 0 then late else saved) = (handshakeNonce first second).getD [] := by
  rw [handshakeNonce_eq, isSaved, isLate]
  cases kept : keptNonce first.clientNonce with
  | none => rfl
  | some nonce =>
    have length := length_keptNonce kept
    rw [Option.getD_some, if_neg (by omega)]
    rfl

theorem length_handshakeNonce (held : handshakeNonce first second = some nonce) :
    nonce.length = 32 := by
  rw [handshakeNonce_eq, Option.or_eq_some_iff] at held
  rcases held with early | ⟨_, late⟩
  · exact length_keptNonce early
  · exact length_keptNonce late

theorem binds_of_verified {version : Nat} {pubkey plain : Bytes}
    (held : host.pubkey = some pubkey) (some_key : pubkey ≠ [])
    (wanted : if version ≥ 5 ∧ ((handshakeNonce first second).getD []).length ≥ 32 then
        host.crypto.sha256 (clientToServerMagic ++ [0] ++ (handshakeNonce first second).getD [] ++
          pubkey) = some plain
      else plain = pubkey) :
    Binds host version (handshakeNonce first second) plain := by
  refine ⟨pubkey, held, some_key, ?_⟩
  by_cases recent : 5 ≤ version
  · rw [if_pos recent]
    cases nonce : handshakeNonce first second with
    | none =>
      rw [nonce, if_neg (by simp)] at wanted
      exact wanted
    | some octets =>
      have length := length_handshakeNonce nonce
      rw [nonce, Option.getD_some, if_pos ⟨recent, by omega⟩] at wanted
      exact wanted
  · rw [if_neg recent]
    rwa [if_neg (by omega)] at wanted

/-- What holds after the channel binding was verified: both messages so far, and
the cipher behind pubKeyAuth. -/
structure Bound (host : NlaHost) (st : NlaChallenged) (first fields : TsFields)
    (message authenticate ntHash baseKey pubKeyAuth binding : Bytes) (c : NlaChecked) :
    Prop where
  message : TsMessage message fields
  named : fields.negoToken = some authenticate
  authenticated : Authenticated host st authenticate ntHash baseKey
  exported : c.exported = exportedKey host.crypto authenticate baseKey
  version : c.version = fields.version
  sealedBinding : fields.pubKeyAuth = some pubKeyAuth
  unseals : Unseals host.crypto (ntlmSealKey host.crypto true c.exported)
    (ntlmSignKey host.crypto true c.exported) 0 0 pubKeyAuth binding
  binds : Binds host fields.version (handshakeNonce first fields) binding
  cipher : c.rc4 = ⟨ntlmSealKey host.crypto true c.exported, binding.length + 8⟩

theorem nlaCheckBinding_bound {c : NlaChecked} {first : TsFields}
    (saved : st.savedNonce = (keptNonce first.clientNonce).getD [])
    (ok : nlaCheckBinding host st = .ok c) :
    ∃ message fields authenticate ntHash baseKey pubKeyAuth binding,
      st.input.client = message ++ c.input.client ∧
      Bound host st first fields message authenticate ntHash baseKey pubKeyAuth binding c := by
  simp only [nlaCheckBinding, rdpTlsGetServerPubkey, rdpRc4New, bind_eq_ok, refuse_eq_ok,
    pure_eq_ok] at ok
  obtain ⟨input, read, req, parsed, token, present, late, taken, exported, verified, pubkey,
    ⟨_, held, _, _, rfl⟩, _, some_key, _, ⟨_, _, rfl⟩, pkaSlice, pkaPresent, pka, pkaFetched, rc4,
    bound, rfl⟩ := ok
  obtain ⟨message, split, front⟩ := readTsrequest_front read
  obtain ⟨isMessage, inside⟩ := front.parsed parsed
  have isLate := front.takeNonce inside.clientNonce taken
  rw [@usedNonce_eq first (req.fields message) _ _ saved isLate] at bound
  obtain ⟨ntHash, baseKey, rfl, authenticated⟩ := nlaVerifyAuthenticate_authenticated verified
  obtain ⟨binding, unseals, cipher, wanted⟩ := verifyClientBinding_binds bound
  have isToken : token.octets input.buf = token.octets message :=
    front.slice (inside.negoToken token (accept_eq_ok.1 present))
  rw [isToken] at authenticated unseals cipher ⊢
  refine ⟨message, req.fields message, token.octets message, ntHash, baseKey, pka, binding, split,
    ?_⟩
  exact
    { message := isMessage
      named := by rw [TsRequest.fields, accept_eq_ok.1 present, Option.map_some]
      authenticated := authenticated
      exported := rfl
      version := rfl
      sealedBinding := (front.field inside.pubKeyAuth pkaPresent pkaFetched).1
      unseals := unseals
      binds := binds_of_verified (accept_eq_ok.1 held)
        (fun empty => some_key (by rw [empty, List.length_nil])) wanted
      cipher := by rw [cipher, Nat.zero_add] }

end Binding

theorem fetch_elim {field : NtlmField} {mem octets : Bytes}
    (fetched : field.fetch mem = .ok octets) : field.elim [] (Slice.octets · mem) = octets := by
  cases field with
  | none =>
    rw [NtlmField.fetch, Except.ok.injEq] at fetched
    exact fetched
  | some s =>
    rw [NtlmField.fetch, Slice.fetch_eq_ok] at fetched
    exact fetched.2

theorem nlaCredentials_unsealed {v : NlaVerified} {userSize passSize : Nat}
    {user pass : Bytes} (sent : List Bytes)
    (ok : nlaCredentials host v userSize passSize = .ok (user, pass)) :
    ∃ message rest fields authInfo credentials, v.input.client = message ++ rest ∧
      TsMessage message fields ∧ fields.authInfo = some authInfo ∧
      Unseals host.crypto v.rc4.key v.ctsSign v.rc4.pos 1 authInfo credentials ∧
      Decoded credentials userSize passSize ⟨user, pass, sent⟩ := by
  simp only [nlaCredentials, bind_eq_ok] at ok
  obtain ⟨input, read, req, parsed, slice, present, _, _, _, _, authInfo, fetched,
    ⟨credentials, _⟩, opened, tc, tcParsed, userUtf16, userFetched, passUtf16, passFetched, rfl,
    rfl⟩ := ok
  obtain ⟨message, split, front⟩ := readTsrequest_front read
  obtain ⟨isMessage, inside⟩ := front.parsed parsed
  refine ⟨message, input.client, req.fields message, authInfo, credentials, split, isMessage,
    (front.field inside.authInfo present fetched).1, (ntlmUnsealMessage_unseals opened).1, tc,
    tcParsed, ?_, ?_⟩
  · exact (congrArg (utf16ToCString _ _) (fetch_elim userFetched)).symm
  · exact (congrArg (utf16ToCString _ _) (fetch_elim passFetched)).symm

/-- **Soundness of NLA.** Whatever octets the client sends, if the server
accepts then the run was a sound handshake: the client proved the NT hash of the
user it named for this run's challenge, a MIC it announced is right for the
messages of this run, its pubKeyAuth binds this server's key, and the returned
credentials were unsealed on the continuation of the same keystream. -/
theorem rdpNlaServer_sound {userSize passSize : Nat} {accepted : NlaAccepted}
    (ok : rdpNlaServer host client userSize passSize = .ok accepted) :
    ∃ t, Handshake host client userSize passSize accepted t := by
  simp only [rdpNlaServer, bind_eq_ok, pure_eq_ok] at ok
  obtain ⟨st, negotiate, v, authenticate, ⟨user, pass⟩, credentials, rfl⟩ := ok
  obtain ⟨first, firstFields, firstSplit, challenged⟩ := nlaNegotiate_challenged negotiate
  simp only [nlaAuthenticate, bind_eq_ok, pure_eq_ok] at authenticate
  obtain ⟨c, checked, out, -, rfl⟩ := authenticate
  obtain ⟨second, secondFields, authMsg, ntHash, baseKey, pubKeyAuth, binding, secondSplit,
      bound⟩ :=
    nlaCheckBinding_bound challenged.nonce checked
  obtain ⟨third, rest, thirdFields, authInfo, opened, thirdSplit, thirdMessage, sealed, unseals,
    decoded⟩ := nlaCredentials_unsealed [st.sent, out] credentials
  have boundSeal := bound.unseals
  dsimp only at thirdSplit unseals
  rw [bound.cipher] at unseals
  rw [bound.exported] at unseals boundSeal
  refine ⟨⟨first, second, third, rest, firstFields, secondFields, thirdFields, st.negMsg, st.chal,
    authMsg, ntHash, baseKey, pubKeyAuth, binding, authInfo, opened⟩, ?_⟩
  exact
    { stream := by
        rw [firstSplit, secondSplit, thirdSplit]
        simp
      firstMessage := challenged.message
      secondMessage := bound.message
      thirdMessage := thirdMessage
      negotiated := challenged.negotiated
      challenged := ⟨st.sent, out, rfl, challenged.sent⟩
      fresh := challenged.fresh
      authenticated := bound.named
      known := bound.authenticated.known
      proved := bound.authenticated.proved
      intact := bound.authenticated.intact
      sealedBinding := bound.sealedBinding
      boundSeal := boundSeal
      bound := bound.binds
      sealedCredentials := sealed
      credentialSeal := unseals
      decoded := decoded }

/-- A host with one user, `a`. -/
def toyHost : NlaHost where
  crypto := toyCrypto
  nthashes := some ([0x61, 0x3a] ++ List.replicate 32 0x30 ++ [0x0a])
  time := 0
  challenge := List.replicate 8 7
  challenge_length := rfl
  pubkey := some [1]
  writes := fun _ => true
  malloc := fun _ => true

/-- The three TSRequests of a client that is user `a` with password `b`. -/
def toyClient : Bytes :=
  [0x30, 0x1f, 0xa0, 3, 2, 1, 2, 0xa1, 0x18, 0x30, 0x16, 0x30, 0x14, 0xa0, 0x12, 4, 0x10] ++
    Ntlm.sig ++ [1, 0, 0, 0, 0, 0, 0, 0] ++
  [0x30, 0x7e, 0xa0, 3, 2, 1, 2, 0xa1, 0x62, 0x30, 0x60, 0x30, 0x5e, 0xa0, 0x5c, 4, 0x5a] ++
    Ntlm.sig ++ [3, 0, 0, 0] ++ List.replicate 8 0 ++ [24, 0, 24, 0, 64, 0, 0, 0] ++
    List.replicate 8 0 ++ [2, 0, 2, 0, 88, 0, 0, 0] ++ List.replicate 44 0 ++ [0x61, 0] ++
    [0xa3, 0x13, 4, 0x11, 1, 0, 0, 0] ++ List.replicate 12 0 ++ [1] ++
  [0x30, 0x36, 0xa0, 3, 2, 1, 2, 0xa2, 0x2f, 4, 0x2d, 1, 0, 0, 0] ++ List.replicate 8 0 ++
    [1, 0, 0, 0] ++ [0x30, 0x1b, 0xa0, 3, 2, 1, 1, 0xa1, 0x14, 4, 0x12, 0x30, 0x10] ++
    [0xa0, 2, 4, 0, 0xa1, 4, 4, 2, 0x61, 0, 0xa2, 4, 4, 2, 0x62, 0]

theorem rdpNlaServer_sound_toy : ∃ accepted, rdpNlaServer toyHost toyClient 4 4 = .ok accepted ∧
    ∃ t, Handshake toyHost toyClient 4 4 accepted t := by
  have accepts : (rdpNlaServer toyHost toyClient 4 4).isOk = true := by decide +kernel
  cases ran : rdpNlaServer toyHost toyClient 4 4 with
  | error failure =>
    rw [ran] at accepts
    cases accepts
  | ok accepted => exact ⟨accepted, rfl, rdpNlaServer_sound ran⟩

end RdpServer

namespace RdpServer

open Bytes Option

def SentNonce (first second : TsFields) (nonce : Bytes) : Prop :=
  ∃ sent, (first.clientNonce = some sent ∨ second.clientNonce = some sent) ∧ 32 ≤ sent.length ∧
    nonce = sent.take 32

/-- The client's pubKeyAuth opens to the hash of the magic, a nonce of the client and the public
key of this server. -/
def HashBound (host : NlaHost) (first second : TsFields) (c : NlaChecked) : Prop :=
  ∃ nonce pubkey pubKeyAuth plain, SentNonce first second nonce ∧ host.pubkey = some pubkey ∧
    second.pubKeyAuth = some pubKeyAuth ∧
    Unseals host.crypto (ntlmSealKey host.crypto true c.exported)
      (ntlmSignKey host.crypto true c.exported) 0 0 pubKeyAuth plain ∧
    host.crypto.sha256 (clientToServerMagic ++ [0] ++ nonce ++ pubkey) = some plain

structure ReadMessages (client : Bytes) (c : NlaChecked) (first second : TsFields) :
    Prop where
  stream : ∃ negotiate authenticate, client = negotiate ++ authenticate ++ c.input.client ∧
    TsMessage negotiate first ∧ TsMessage authenticate second
  version : c.version = second.version

variable {host : NlaHost} {client : Bytes} {st : NlaChallenged} {c : NlaChecked}

theorem sentNonce_of_handshakeNonce (held : handshakeNonce first second = some nonce) :
    SentNonce first second nonce := by
  rw [handshakeNonce, map_eq_some_iff] at held
  obtain ⟨sent, found, rfl⟩ := held
  rw [or_eq_some_iff] at found
  rcases found with early | ⟨-, late⟩
  · obtain ⟨present, long⟩ := filter_eq_some_iff.1 early
    exact ⟨sent, .inl present, of_decide_eq_true long, rfl⟩
  · obtain ⟨present, long⟩ := filter_eq_some_iff.1 late
    exact ⟨sent, .inr present, of_decide_eq_true long, rfl⟩

theorem handshakeNonce_ne_none (sent : SentNonce first second nonce) :
    handshakeNonce first second ≠ none := by
  obtain ⟨octets, present, long, -⟩ := sent
  have kept : (some octets).filter (fun sent => decide (32 ≤ sent.length)) = some octets :=
    filter_eq_some_iff.2 ⟨rfl, decide_eq_true long⟩
  intro none
  rw [handshakeNonce, map_eq_none_iff, or_eq_none_iff] at none
  rcases present with early | late
  · rw [early, kept] at none
    exact some_ne_none _ none.1
  · rw [late, kept] at none
    exact some_ne_none _ none.2

/-- **A client of version 5 or later is bound by the nonce hash exactly if it sent a nonce**: for
every client that gets past the check of its pubKeyAuth. -/
theorem hashBound_iff (negotiated : nlaNegotiate host client = .ok st)
    (checked : nlaCheckBinding host st = .ok c) :
    ∃ first second, ReadMessages client c first second ∧ (5 ≤ c.version →
        (HashBound host first second c ↔ ∃ nonce, SentNonce first second nonce)) := by
  obtain ⟨negotiate, first, firstSplit, challenged⟩ := nlaNegotiate_challenged negotiated
  obtain ⟨authenticate, second, _, _, _, pubKeyAuth, binding, secondSplit, bound⟩ :=
    nlaCheckBinding_bound challenged.nonce checked
  have stream : client = negotiate ++ authenticate ++ c.input.client := by
    rw [firstSplit, secondSplit, List.append_assoc]
  refine ⟨first, second, ⟨⟨negotiate, authenticate, stream, challenged.message, bound.message⟩,
    bound.version⟩, fun recent => ⟨?_, ?_⟩⟩
  · rintro ⟨nonce, -, -, -, sent, -⟩
    exact ⟨nonce, sent⟩
  · rintro ⟨other, sent⟩
    obtain ⟨nonce, held⟩ := ne_none_iff_exists'.1 (handshakeNonce_ne_none sent)
    obtain ⟨pubkey, key, -, wanted⟩ := bound.binds
    rw [bound.version] at recent
    rw [if_pos recent, held] at wanted
    exact ⟨nonce, pubkey, pubKeyAuth, binding, sentNonce_of_handshakeNonce held, key,
      bound.sealedBinding, bound.unseals, wanted⟩

/-- The TSRequests of a client that claims version 5, sends no nonce and seals the raw public
key. -/
def rawClient : Bytes :=
  [0x30, 0x1f, 0xa0, 3, 2, 1, 5, 0xa1, 0x18, 0x30, 0x16, 0x30, 0x14, 0xa0, 0x12, 4, 0x10] ++
    Ntlm.sig ++ [1, 0, 0, 0, 0, 0, 0, 0] ++
  [0x30, 0x7e, 0xa0, 3, 2, 1, 5, 0xa1, 0x62, 0x30, 0x60, 0x30, 0x5e, 0xa0, 0x5c, 4, 0x5a] ++
    Ntlm.sig ++ [3, 0, 0, 0] ++ List.replicate 8 0 ++ [24, 0, 24, 0, 64, 0, 0, 0] ++
    List.replicate 8 0 ++ [2, 0, 2, 0, 88, 0, 0, 0] ++ List.replicate 44 0 ++ [0x61, 0] ++
    [0xa3, 0x13, 4, 0x11, 1, 0, 0, 0] ++ List.replicate 12 0 ++ [1]

def rawRun : Checked NlaChecked := nlaNegotiate toyHost rawClient >>= nlaCheckBinding toyHost

theorem hashBound_iff_raw :
    ∃ st c, nlaNegotiate toyHost rawClient = .ok st ∧ nlaCheckBinding toyHost st = .ok c ∧
      ∃ first second, ReadMessages rawClient c first second ∧ (5 ≤ c.version →
          (HashBound toyHost first second c ↔ ∃ nonce, SentNonce first second nonce)) := by
  have passes : rawRun.isOk = true := by decide +kernel
  cases ran : rawRun with
  | error failure =>
    rw [ran] at passes
    cases passes
  | ok c =>
    obtain ⟨st, negotiated, checked⟩ := bind_eq_ok.1 ran
    exact ⟨st, c, negotiated, checked, hashBound_iff negotiated checked⟩

theorem tsMessage_bare {message : Bytes} (parsed : (rdpCsspParse message).map (fun req =>
      ((req.fields message).version, (req.fields message).clientNonce)) = .ok (5, none)) :
    ∃ fields, TsMessage message fields ∧ fields.version = 5 ∧ fields.clientNonce = none := by
  cases ran : rdpCsspParse message with
  | error failure =>
    rw [ran] at parsed
    cases parsed
  | ok req =>
    rw [ran, Except.map, Except.ok.injEq, Prod.mk.injEq] at parsed
    exact ⟨req.fields message, ⟨req, ran, rfl⟩, parsed.1, parsed.2⟩

/-- **The raw key is enough for version 5**: the server gets past the check, though the client
sent no nonce and its pubKeyAuth is no hash of one. -/
theorem raw_key_accepted :
    ∃ st c first second, nlaNegotiate toyHost rawClient = .ok st ∧
      nlaCheckBinding toyHost st = .ok c ∧ c.version = 5 ∧ ReadMessages rawClient c first second ∧
      first.clientNonce = none ∧ second.clientNonce = none ∧
        ¬ HashBound toyHost first second c := by
  have passes : rawRun.map (fun c => (c.version, c.input.client)) = .ok (5, []) := by
    decide +kernel
  obtain ⟨first, isFirst, -, noFirst⟩ := @tsMessage_bare (rawClient.take 33) (by decide +kernel)
  obtain ⟨second, isSecond, five, noSecond⟩ :=
    @tsMessage_bare (rawClient.drop 33) (by decide +kernel)
  cases ran : rawRun with
  | error failure =>
    rw [ran] at passes
    cases passes
  | ok c =>
    rw [ran, Except.map, Except.ok.injEq, Prod.mk.injEq] at passes
    obtain ⟨version, rest⟩ := passes
    obtain ⟨st, negotiated, checked⟩ := bind_eq_ok.1 ran
    have stream : rawClient = rawClient.take 33 ++ rawClient.drop 33 ++ c.input.client := by
      rw [rest, List.append_nil, List.take_append_drop]
    refine ⟨st, c, first, second, negotiated, checked, version,
      ⟨⟨_, _, stream, isFirst, isSecond⟩, version.trans five.symm⟩, noFirst, noSecond, ?_⟩
    rintro ⟨_, _, _, _, ⟨sent, present, -⟩, -⟩
    rw [noFirst, noSecond] at present
    rcases present with absurd | absurd <;> cases absurd

end RdpServer
