import WebToken.Proofs.Jwe.Parsing
import WebToken.Proofs.Jws.Document
import WebToken.Proofs.Token.RoundTrip
import WebToken.Proofs.Token.Stages

/-!
An unprotected header fills up the protected one and changes nothing of it. Verification asks a header
for the algorithm and the identifier of the key only, so it sees nothing of an unprotected header once
the protected one has both.
-/

namespace WebToken

namespace Header

/-- A header has all that another one has. An algorithm that is empty counts as missing. -/
structure Keeps (given merged : Header) : Prop where
  alg : given.alg ≠ "" → merged.alg = given.alg
  enc : ∀ name, given.enc = some name → merged.enc = some name
  kid : ∀ id, given.kid = some id → merged.kid = some id
  typ : ∀ type, given.typ = some type → merged.typ = some type
  cty : ∀ type, given.cty = some type → merged.cty = some type
  epk : ∀ key, given.epk = some key → merged.epk = some key
  apu : ∀ sender, given.apu = some sender → merged.apu = some sender
  apv : ∀ recipient, given.apv = some recipient → merged.apv = some recipient
  iv : ∀ vector, given.iv = some vector → merged.iv = some vector
  tag : ∀ tag, given.tag = some tag → merged.tag = some tag
  p2s : ∀ salt, given.p2s = some salt → merged.p2s = some salt
  p2c : ∀ count, given.p2c = some count → merged.p2c = some count
  crit : ∀ names, given.crit = some names → merged.crit = some names

variable {given unprotectedHeader : Header}

theorem alg_merge (named : given.alg ≠ "") : (given.merge unprotectedHeader).alg = given.alg := by
  rw [merge, if_neg (by simpa using named)]

theorem filled_eq_some {α : Type} (filler : Option α) :
    ∀ {own : Option α} (value : α), own = some value → (own <|> filler) = some value := by
  rintro _ value rfl
  rfl

theorem keeps_merge (given unprotectedHeader : Header) : given.Keeps (given.merge unprotectedHeader) where
  alg := alg_merge
  enc := filled_eq_some _
  kid := filled_eq_some _
  typ := filled_eq_some _
  cty := filled_eq_some _
  epk := filled_eq_some _
  apu := filled_eq_some _
  apv := filled_eq_some _
  iv := filled_eq_some _
  tag := filled_eq_some _
  p2s := filled_eq_some _
  p2c := filled_eq_some _
  crit := fun _ critical => critical

/-- What verification asks a header for. -/
def named (header : Header) : Header := { alg := header.alg, kid := header.kid }

theorem named_merge (algorithm : given.alg ≠ "") (identified : given.kid ≠ none) :
    (given.merge unprotectedHeader).named = given.named := by
  obtain ⟨id, kid⟩ := Option.ne_none_iff_exists'.mp identified
  have merged := (keeps_merge given unprotectedHeader).kid id kid
  rw [named, named, alg_merge algorithm, merged, kid]

end Header

namespace Jws

variable {protectedText payload signature : String} {given unprotectedHeader : Header}

theorem ofParts_of_decode (decoded : Header.decode protectedText = .ok given) :
    ofParts protectedText unprotectedHeader payload signature = (do
      let payloadBytes ← partBytes "payload" payload
      let signatureBytes ← partBytes "signature" signature
      return ⟨given.merge unprotectedHeader, Bytes.ofText (inputText protectedText payload), payloadBytes,
        signatureBytes⟩) := by
  rw [ofParts, mergedHeader_of_decode decoded, ok_bind]

theorem exists_keeps_of_make {parts : Parts} {jws : Jws} (made : parts.Make jws)
    (nonempty : parts.protectedText ≠ "") :
    ∃ given, Header.decode parts.protectedText = .ok given ∧ given.Keeps jws.header := by
  have merged := made.header
  rw [mergedHeader, if_neg (by simpa using nonempty)] at merged
  obtain ⟨given, decoded, merged⟩ := map_eq_ok.mp merged
  exact ⟨given, decoded, merged ▸ Header.keeps_merge given _⟩

/-- No text is both a signed token and an encrypted one. -/
theorem not_carries_of_parse {text : String} {parts : Parts} {jwe : Jwe} (parsed : Jwe.parse text = .ok jwe) :
    ¬Carries text parts := by
  obtain ⟨decoded, _, _, _, _, _, five, _⟩ := Jwe.parse_eq_ok.mp parsed
  intro carried
  cases carried with
  | segments plain three => cases five.symm.trans three
  | members braced read only =>
      have front : (Text.trim text).toList.head? = some '{' := beq_iff_eq.mp braced
      obtain ⟨first, others, cut, brace⟩ := Text.exists_dotted_of_head? front (by decide)
      obtain ⟨rfl, _⟩ := List.cons.inj (five.symm.trans cut)
      rw [Header.decode, Text.decode?_of_head? brace (by decide)] at decoded
      cases decoded

end Jws

namespace Token

variable {keys verification decryption : KeySet} {hint : Suite} {second : Int} {seconds : Seconds} {draws : Draws}

theorem verifyParsed_congr {header other : Header} (same : header.named = other.named)
    (signingInput payload signature : Bytes) :
    verifyParsed keys hint second ⟨header, signingInput, payload, signature⟩ =
      verifyParsed keys hint second ⟨other, signingInput, payload, signature⟩ := by
  have seen (header : Header) : verifyParsed keys hint second ⟨header, signingInput, payload, signature⟩ =
      verifyParsed keys hint second ⟨header.named, signingInput, payload, signature⟩ := rfl
  rw [seen header, seen other, same]

variable {one another protectedText payload signature : String} {header other given : Header}

theorem verifyStage_unprotected (carried : Jws.Carries one ⟨protectedText, header, payload, signature⟩)
    (also : Jws.Carries another ⟨protectedText, other, payload, signature⟩)
    (decoded : Header.decode protectedText = .ok given) (algorithm : given.alg ≠ "")
    (identified : given.kid ≠ none) :
    verifyStage (Bytes.ofText one) keys hint second = verifyStage (Bytes.ofText another) keys hint second := by
  have same : (given.merge header).named = (given.merge other).named :=
    (Header.named_merge algorithm identified).trans (Header.named_merge algorithm identified).symm
  rw [verifyStage_ofText, verifyStage_ofText, Jws.parse_of_carries carried, Jws.parse_of_carries also,
    Jws.ofParts_of_decode decoded, Jws.ofParts_of_decode decoded]
  cases partBytes "payload" payload with
  | error flaw => rfl
  | ok payloadBytes =>
      cases partBytes "signature" signature with
      | error flaw => rfl
      | ok signatureBytes => exact verifyParsed_congr same _ _ _

theorem decodeBytes_of_carries {text : String} {parts : Jws.Parts} (carried : Jws.Carries text parts)
    (encrypts : hint.encrypts = true) :
    ∃ flaw, decodeBytes text verification decryption hint seconds draws = .error (.invalidToken flaw) := by
  cases parsed : Jwe.parse text with
  | ok jwe => exact absurd carried (Jws.not_carries_of_parse parsed)
  | error flaw =>
      refine ⟨flaw, ?_⟩
      rw [decodeBytes_eq_bind, received, if_pos encrypts, decryptStage, parsed]
      rfl

/-- Two signed tokens that differ in their unprotected headers only are decoded alike, if their protected
header has an algorithm and an identifier. A suite that decrypts first takes neither for a token. Whatever
the protected header has stays in the header of the token. -/
theorem decodeBytes_unprotected :
    (∀ (one another protectedText payload signature : String) (header other given : Header),
      Jws.Carries one ⟨protectedText, header, payload, signature⟩ →
      Jws.Carries another ⟨protectedText, other, payload, signature⟩ →
      Header.decode protectedText = .ok given → given.alg ≠ "" → given.kid ≠ none →
      (∀ (verification : KeySet) (hint : Suite) (second : Int),
        verifyStage (Bytes.ofText one) verification hint second =
          verifyStage (Bytes.ofText another) verification hint second) ∧
      ∀ (verification decryption : KeySet) (hint : Suite) (seconds : Seconds) (draws : Draws), hint.signs = true →
        (hint.encrypts = false →
          decodeBytes one verification decryption hint seconds draws =
            decodeBytes another verification decryption hint seconds draws) ∧
        (hint.encrypts = true →
          (∃ flaw, decodeBytes one verification decryption hint seconds draws = .error (.invalidToken flaw)) ∧
            ∃ flaw, decodeBytes another verification decryption hint seconds draws = .error (.invalidToken flaw))) ∧
    ∀ (text : String) (parts : Jws.Parts) (jws : Jws), Jws.Carries text parts → parts.protectedText ≠ "" →
      Jws.parse text = .ok jws →
      ∃ given, Header.decode parts.protectedText = .ok given ∧ given.Keeps jws.header := by
  constructor
  · intro one another protectedText payload signature header other given carried also decoded algorithm identified
    have alike (verification : KeySet) (hint : Suite) (second : Int) :
        verifyStage (Bytes.ofText one) verification hint second =
          verifyStage (Bytes.ofText another) verification hint second :=
      verifyStage_unprotected carried also decoded algorithm identified
    refine ⟨alike, fun verification decryption hint seconds draws signs => ⟨?_, ?_⟩⟩
    · intro plain
      have unopened (token : String) :
          received token decryption hint seconds.encryption draws = .ok (Bytes.ofText token) := by
        rw [received, plain, if_neg Bool.false_ne_true]
      rw [decodeBytes_of_signs signs (unopened one), decodeBytes_of_signs signs (unopened another), alike]
    · intro encrypts
      exact ⟨decodeBytes_of_carries carried encrypts, decodeBytes_of_carries also encrypts⟩
  · intro text parts jws carried nonempty parsed
    rw [Jws.parse_of_carries carried] at parsed
    exact Jws.exists_keeps_of_make (Jws.ofParts_eq_ok.mp parsed) nonempty

/-- A header that names another algorithm, another key and an extension. -/
def steeringHeader : Header := { alg := "none", kid := some "b", crit := some ["x"] }

/-- A signed token rewritten as a document that steers elsewhere is decoded as before. -/
theorem decodeBytes_unprotected_steering :
    ∃ token parts jws, Jws.Carries token { parts with unprotectedHeader := {} } ∧
      parts.unprotectedHeader = steeringHeader ∧ Jws.Carries parts.toDocument parts ∧
      Jws.parse parts.toDocument = .ok jws ∧ jws.header.alg = "HS256" ∧ jws.header.kid = some "\"\n" ∧
      decodeBytes parts.toDocument (.ofKeys [escapedKey]) .empty .signedByKey ⟨5, 6⟩ (.constant 0 0) = .ok [0xFF] := by
  obtain ⟨token, made⟩ : ∃ token, Jws.signCompact (.hmac .sha256) escapedKey (.constant 3 0) [0xFF] = .ok token :=
    ⟨_, Jws.signCompact_eq_ok.mpr ⟨_, rfl, rfl⟩⟩
  obtain ⟨signature, signed, rfl⟩ := Jws.signCompact_eq_ok.mp made
  let header := Header.ofKey (SignatureAlgorithm.hmac .sha256).name escapedKey.id
  let parts : Jws.Parts := ⟨header.encode, steeringHeader, Base64Url.encode [0xFF], Base64Url.encode signature⟩
  have decoded : Header.decode parts.protectedText = .ok header := Header.decode_encode nofun rfl
  have compact : Jws.Carries _ { parts with unprotectedHeader := {} } :=
    Jws.carries_joinDotted (Jws.segments_signCompact header [0xFF] signature)
  have document : Jws.Carries parts.toDocument parts := Jws.carries_toDocument nofun
  have make : parts.Make ⟨header.merge steeringHeader, Bytes.ofText (Jws.inputText parts.protectedText parts.payload),
      [0xFF], signature⟩ := by
    constructor
    · exact Jws.mergedHeader_of_decode decoded
    · dsimp only
    · exact Base64Url.decode?_encode _
    · exact Base64Url.decode?_encode _
  have parsed := Jws.parse_eq_ok.mpr ⟨parts, document, make⟩
  obtain ⟨given, found, keeps⟩ := decodeBytes_unprotected.2 _ parts _ document (Jws.decode_ne_empty decoded) parsed
  obtain rfl := Except.ok.inj (decoded.symm.trans found)
  obtain ⟨alike, _⟩ := decodeBytes_unprotected
  obtain ⟨_, steered⟩ := alike _ _ _ _ _ _ _ _ document compact decoded (by decide) (by decide)
  obtain ⟨same, _⟩ := steered (.ofKeys [escapedKey]) .empty .signedByKey ⟨5, 6⟩ (.constant 0 0) rfl
  have verified : verifyStage (Bytes.ofText _) (.ofKeys [escapedKey]) .signedByKey 5 = .ok [0xFF] :=
    verifyStage_signCompact (Or.inl rfl) (Or.inl (by decide)) (by decide) rfl rfl (Signature.trusted_symmetric _ _) rfl
      nofun made
  refine ⟨_, parts, _, compact, rfl, document, parsed, keeps.alg (by decide), keeps.kid _ rfl, ?_⟩
  rw [same rfl, decodeBytes_of_signs rfl rfl]
  exact verified

/-- A protected header that names an algorithm and a key. -/
def keyedHeaderText : String := "eyJhbGciOiJIUzI1NiIsImtpZCI6ImsifQ"

/-- A signed token as a document, with the members of its unprotected header. -/
def documentBeside (members : String) : String :=
  "\x7b\"payload\":\"e30\",\"protected\":\"" ++ keyedHeaderText ++ "\",\"header\":\x7b" ++ members ++
    "\x7d,\"signature\":\"AA\"\x7d"

/-- A suite that decrypts before it verifies. -/
def openingFirst : Suite := (Suite.signed (.hmac .sha256)).withEncryption .direct (.gcm .bits128)

/-- A suite that decrypts first takes the dots of an unprotected header for those between the segments of an encrypted
token, so what it misses in a document depends on that header. -/
theorem decodeBytes_unprotected_dots :
    ∃ header other one another,
      Jws.Carries (documentBeside "") ⟨keyedHeaderText, header, "e30", "AA"⟩ ∧
      Jws.Carries (documentBeside "\"cty\":\"a.b.c.d.e\"") ⟨keyedHeaderText, other, "e30", "AA"⟩ ∧
      Header.decode keyedHeaderText = .ok { alg := "HS256", kid := some "k" } ∧
      Jws.parse (documentBeside "") = .ok one ∧
      Jws.parse (documentBeside "\"cty\":\"a.b.c.d.e\"") = .ok another ∧ openingFirst.signs = true ∧
      decodeBytes (documentBeside "") .empty .empty openingFirst ⟨5, 6⟩ (.constant 0 0) =
        .error (.invalidToken .encryptedSegments) ∧
      decodeBytes (documentBeside "\"cty\":\"a.b.c.d.e\"") .empty .empty openingFirst ⟨5, 6⟩ (.constant 0 0) =
        .error (.invalidToken .headerNotBase64) := by
  have carried : Jws.Carries (documentBeside "") ⟨keyedHeaderText, {}, "e30", "AA"⟩ :=
    Jws.ofText_eq_ok.mp (ok_of_toOption (by decide +kernel))
  have also : Jws.Carries (documentBeside "\"cty\":\"a.b.c.d.e\"")
      ⟨keyedHeaderText, { cty := some "a.b.c.d.e" }, "e30", "AA"⟩ :=
    Jws.ofText_eq_ok.mp (ok_of_toOption (by decide +kernel))
  have decoded : Header.decode keyedHeaderText = .ok { alg := "HS256", kid := some "k" } :=
    ok_of_toOption (by decide +kernel)
  have payload : Base64Url.decode? "e30" = some (Bytes.ofText "\x7b\x7d") := by decide +kernel
  have signature : Base64Url.decode? "AA" = some [0] := by decide +kernel
  have parses {text : String} {header : Header} (carried : Jws.Carries text ⟨keyedHeaderText, header, "e30", "AA"⟩) :
      ∃ jws, Jws.parse text = .ok jws := by
    have make : Jws.Parts.Make ⟨keyedHeaderText, header, "e30", "AA"⟩
        ⟨Header.merge { alg := "HS256", kid := some "k" } header, Bytes.ofText (Jws.inputText keyedHeaderText "e30"),
          Bytes.ofText "\x7b\x7d", [0]⟩ := by
      constructor
      · exact Jws.mergedHeader_of_decode decoded
      · dsimp only
      · exact payload
      · exact signature
    exact ⟨_, Jws.parse_eq_ok.mpr ⟨_, carried, make⟩⟩
  obtain ⟨one, parsed⟩ := parses carried
  obtain ⟨another, parsedToo⟩ := parses also
  refine ⟨_, _, one, another, carried, also, decoded, parsed, parsedToo, rfl, ?_, ?_⟩
  · decide +kernel
  · decide +kernel

end Token

end WebToken
