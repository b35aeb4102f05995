import WebToken.Jws
import WebToken.Proofs.Algorithm
import WebToken.Proofs.Header
import WebToken.Proofs.Jws.Parsing
import WebToken.Proofs.Rsa.Signature
import WebToken.Proofs.Text.Segment

/-!
Signed tokens as made: what `signCompact` gives parses as the token that was meant, and the key
that signed it verifies it.
-/

namespace WebToken.Jws

variable {algorithm : SignatureAlgorithm} {key : Key} {draws : Draws} {payload : Bytes} {token : String}

theorem ofKey_counted (name id : String) : (Header.ofKey name id).Counted := nofun

theorem keyId?_ofKey (name id : String) :
    (Header.ofKey name id).keyId? = if id = "" then none else some id := by
  rw [Header.keyId?, Header.ofKey]
  by_cases empty : id = ""
  · simp [empty]
  · simp [empty, Option.filter]

theorem joinDotted_inputText (protectedText payload signature : String) :
    Text.joinDotted [protectedText, payload, signature] = inputText protectedText payload ++ "." ++ signature := by
  simp only [Text.joinDotted, inputText, String.intercalate_cons_cons, String.intercalate_singleton,
    String.append_assoc]

/-- What is made is three base64url segments, of which the last is a signature of the other two. -/
theorem signCompact_eq_ok :
    signCompact algorithm key draws payload = .ok token ↔
      ∃ signature, Signature.sign algorithm key draws
          (Bytes.ofText (inputText (Header.ofKey algorithm.name key.id).encode (Base64Url.encode payload))) =
          .ok signature ∧
        Text.joinDotted [(Header.ofKey algorithm.name key.id).encode, Base64Url.encode payload,
          Base64Url.encode signature] = token := by
  simp only [signCompact, bind_eq_ok, joinDotted_inputText]
  constructor
  · intro given
    obtain ⟨signature, signed, made⟩ := given
    exact ⟨signature, signed, Except.ok.inj made⟩
  · intro given
    obtain ⟨signature, signed, rfl⟩ := given
    exact ⟨signature, signed, rfl⟩

theorem carries_joinDotted {protectedText payload signature : String}
    (segments : Text.Segments [protectedText, payload, signature]) :
    Carries (Text.joinDotted [protectedText, payload, signature]) ⟨protectedText, {}, payload, signature⟩ := by
  have trimmed := Text.trim_joinDotted segments
  refine .segments ?_ ?_
  · rw [trimmed, looksLikeDocument, beq_eq_false_iff_ne]
    exact Text.head?_joinDotted segments
  · rw [trimmed]
    exact Text.dotted_segments (List.cons_ne_nil _ _) segments

/-- Filling up with nothing changes nothing but what is called critical. -/
theorem merge_blank (header : Header) : header.merge {} = header := by
  have unchanged {α : Type} (value : Option α) : (value <|> none) = value := by cases value <;> rfl
  have named : (if header.alg.isEmpty then "" else header.alg) = header.alg := by
    split
    · rename_i empty
      exact (String.isEmpty_iff.mp empty).symm
    · rfl
  simp only [Header.merge, unchanged, named]

theorem mergedHeader_encode {header : Header} (counted : header.Counted) (nothingCritical : header.crit = none) :
    mergedHeader header.encode {} = .ok header := by
  rw [mergedHeader_of_decode (Header.decode_encode counted nothingCritical), merge_blank]

theorem segments_signCompact (header : Header) (payload signature : Bytes) :
    Text.Segments [header.encode, Base64Url.encode payload, Base64Url.encode signature] := by
  rw [Header.encode]
  exact Text.segments_encode [_, payload, signature]

theorem parse_segments {header : Header} (counted : header.Counted) (nothingCritical : header.crit = none)
    (payload signature : Bytes) :
    parse (Text.joinDotted [header.encode, Base64Url.encode payload, Base64Url.encode signature]) =
      .ok ⟨header, Bytes.ofText (inputText header.encode (Base64Url.encode payload)), payload, signature⟩ := by
  have carried := carries_joinDotted (segments_signCompact header payload signature)
  refine parse_eq_ok.mpr ⟨_, carried, ?_⟩
  constructor
  · exact mergedHeader_encode counted nothingCritical
  · dsimp only
  · exact Base64Url.decode?_encode payload
  · exact Base64Url.decode?_encode signature

theorem isCompact_segments {header : Header} (counted : header.Counted) (nothingCritical : header.crit = none)
    (named : header.alg ≠ "") (payload signature : Bytes) :
    isCompact (Bytes.ofText
      (Text.joinDotted [header.encode, Base64Url.encode payload, Base64Url.encode signature])) = true := by
  have utf8 (text : String) : Utf8.decode? (Bytes.ofText text) = some text := Utf8.decode?_eq_some_iff.mpr rfl
  have cut := Text.dotted_segments (List.cons_ne_nil _ _) (segments_signCompact header payload signature)
  simp only [isCompact, utf8, cut, Header.decode_encode counted nothingCritical]
  simpa using named

theorem verify_of_accepted {jws : Jws} (named : jws.header.alg = algorithm.name)
    (accepted : Signature.verify algorithm key jws.signingInput jws.signature = .ok ()) :
    jws.verify key = .ok jws.payload := by
  rw [verify, SignatureAlgorithm.ofName?_eq_some.mpr named.symm, require, ok_bind, accepted]
  rfl

theorem parse_signCompact (made : signCompact algorithm key draws payload = .ok token) :
    ∃ jws, parse token = .ok jws ∧ jws.header = Header.ofKey algorithm.name key.id ∧ jws.payload = payload ∧
      Signature.sign algorithm key draws jws.signingInput = .ok jws.signature := by
  obtain ⟨signature, signed, rfl⟩ := signCompact_eq_ok.mp made
  refine ⟨_, parse_segments (ofKey_counted algorithm.name key.id) rfl payload signature, rfl, rfl, ?_⟩
  dsimp only
  exact signed

/-- A signed token is three base64url segments, is told to be one, parses as the header and the payload
that it was made of, and verifies with the key that signed it and with the public half of that key. -/
theorem signCompact_round_trip (trusted : Signature.Trusted algorithm key.material)
    (made : signCompact algorithm key draws payload = .ok token) :
    (∃ header signature : Bytes,
      token = Text.joinDotted [Base64Url.encode header, Base64Url.encode payload, Base64Url.encode signature]) ∧
    isCompact (Bytes.ofText token) = true ∧
    ∃ jws, parse token = .ok jws ∧
      jws.header.alg = algorithm.name ∧ jws.header.keyId? = (if key.id = "" then none else some key.id) ∧
      jws.payload = payload ∧
      jws.verify key = .ok payload ∧ jws.verify key.toPublic = .ok payload := by
  obtain ⟨jws, parsed, header, rfl, signed⟩ := parse_signCompact made
  have named : jws.header.alg = algorithm.name := congrArg Header.alg header
  have identified : jws.header.keyId? = if key.id = "" then none else some key.id :=
    header ▸ keyId?_ofKey algorithm.name key.id
  have accepted := Signature.verify_of_sign trusted signed
  have acceptedByPublic := (Signature.verify_toPublic algorithm key _ _).trans accepted
  obtain ⟨signature, _, rfl⟩ := signCompact_eq_ok.mp made
  refine ⟨⟨_, signature, rfl⟩, ?_, jws, parsed, named, identified, rfl, verify_of_accepted named accepted,
    verify_of_accepted named acceptedByPublic⟩
  exact isCompact_segments (ofKey_counted algorithm.name key.id) rfl algorithm.name_ne_empty jws.payload signature

/-- A key for signatures whose identifier has to be escaped. -/
def rsaSigningKey : Key := ⟨"\"\n", some .signature, some "RS256", .rsaPrivate Rsa.PrivateKey.smoothKey⟩

theorem exists_signCompact_rsaSigningKey (draws : Draws) (payload : Bytes) :
    ∃ token, signCompact (.pkcs1 .sha256) rsaSigningKey draws payload = .ok token := by
  have room : Sha2.Kind.sha256.size + 30 ≤ Rsa.PrivateKey.smoothKey.toPublic.size := by
    rw [Rsa.PrivateKey.size_smoothKey]
    decide
  have secret : rsaSigningKey.material = .rsaPrivate Rsa.PrivateKey.smoothKey := rfl
  obtain ⟨signature, signed⟩ := Signature.exists_sign_pkcs1 draws _ secret Rsa.PrivateKey.inverts_smoothKey room
  exact ⟨_, signCompact_eq_ok.mpr ⟨signature, signed, rfl⟩⟩

theorem trusted_rsaSigningKey (algorithm : SignatureAlgorithm) :
    Signature.Trusted algorithm rsaSigningKey.material :=
  Signature.trusted_rsaPrivate algorithm (Rsa.PrivateKey.ofNumbers_consistent Rsa.PrivateKey.ofNumbers_smoothKey)

/-- An empty payload, signed with an RSA key and verified with either half of it. -/
theorem signCompact_round_trip_rsa :
    ∃ token, signCompact (.pkcs1 .sha256) rsaSigningKey (.constant 0 0) [] = .ok token ∧
      ∃ jws, parse token = .ok jws ∧ jws.header.keyId? = some "\"\n" ∧
        jws.verify rsaSigningKey = .ok [] ∧ jws.verify rsaSigningKey.toPublic = .ok [] := by
  obtain ⟨token, made⟩ := exists_signCompact_rsaSigningKey (.constant 0 0) []
  obtain ⟨_, _, jws, parsed, _, identified, _, verified, verifiedByPublic⟩ :=
    signCompact_round_trip (trusted_rsaSigningKey (.pkcs1 .sha256)) made
  exact ⟨token, made, jws, parsed, identified, verified, verifiedByPublic⟩

end WebToken.Jws
