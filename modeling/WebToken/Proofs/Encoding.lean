import WebToken.Proofs.Header
import WebToken.Proofs.Json.Members
import WebToken.Proofs.Key.SetDocument

/-!
What is written down is read back: headers from their segments, key documents and sets of them from their texts.
A header that was read can be written, whatever it was read from, since reading keeps its count in 32 bits.
-/

namespace WebToken

open Json

namespace Header

variable {segment : String} {header : Header} {names : List String}

theorem lt_of_readCount {node : Node} {count : Nat} (read : readCount node = .ok count) : count < Nat.pow 2 32 := by
  obtain ⟨number, found, rfl⟩ := map_eq_ok.mp read
  obtain ⟨least, most⟩ := between_of_wholeBetween found
  omega

theorem Counted.of_p2c_eq (one other : Header) (same : other.p2c = one.p2c) (counted : one.Counted) : other.Counted :=
  fun count there => counted count (same ▸ there)

theorem maintains_counted : ∀ field ∈ fields Jwk.read, Record.Maintains Counted field.read := by
  have others {β : Type} {name : String} {presence : Presence} {read : Node → Except Fault β}
      {put : β → Header → Header}
      (kept : ∀ value header, (put value header).p2c = header.p2c) :
      Record.Maintains Counted (Member.of name presence read put).read :=
    (Record.Preserves.of kept).maintains Counted.of_p2c_eq
  unfold fields
  iterate 11
    refine List.forall_mem_cons.mpr ⟨others fun _ _ => rfl, ?_⟩
  refine List.forall_mem_cons.mpr ⟨?_, List.forall_mem_singleton.mpr (others fun _ _ => rfl)⟩
  refine .of fun node value found header _ count (there : value = some count) => ?_
  subst there
  exact lt_of_readCount (read_of_optional found)

/-- The count of a header that is read fits 32 bits. -/
theorem counted_of_read {bytes : Bytes} (found : Json.read read bytes = .ok header) : header.Counted :=
  Record.holds_of_read maintains_counted (read_eq_ok.mp found).1
    (fun name => (Record.preserves_skipOther Header.p2c name).maintains Counted.of_p2c_eq) nofun

/-- The segment of a header is the base64url text of a document that is read as the header. -/
theorem spelled_encode (counted : header.Counted) : Spelled header.encode header :=
  ⟨Bytes.ofText header.toText, rfl, ofText_toText counted⟩

theorem decode_encode_critical (counted : header.Counted) (demanded : header.crit = some names) :
    decode header.encode = .error (.critical names) :=
  decode_eq_error.mpr (.critical (spelled_encode counted) demanded)

/-- A header that is decoded is encoded to a segment that is decoded to it again. -/
theorem decode_encode_of_decode (decoded : decode segment = .ok header) :
    header.Counted ∧ decode header.encode = .ok header := by
  obtain ⟨⟨bytes, _, read⟩, uncritical⟩ := decode_eq_ok.mp decoded
  have counted := counted_of_read read
  exact ⟨counted, decode_encode counted uncritical⟩

end Header

theorem Jwk.ofText_toText (jwk : Jwk) : ofText jwk.toText = .ok jwk := by
  obtain ⟨_, spelled, found, _⟩ := jwk.reads
  rw [ofText, toText, Bytes.ofText, String.toList_ofList]
  exact (spelled.read read).trans found

/-- Headers, key documents and sets of them are read back from what they are written as. A header that calls
something critical is refused for that, even for an empty list. What was decoded once is encoded and decoded to the
same header, although the segment may be another one. -/
theorem encodings_read_back :
    (∀ header : Header, header.Counted →
      (header.crit = none → Header.decode header.encode = .ok header) ∧
      ∀ names, header.crit = some names → Header.decode header.encode = .error (.critical names)) ∧
    (∀ segment header, Header.decode segment = .ok header →
      header.Counted ∧ Header.decode header.encode = .ok header) ∧
    (∀ jwk : Jwk, Jwk.ofText jwk.toText = .ok jwk) ∧
    ∀ jwks : List Jwk, Jwk.setOfText (String.ofList (Jwk.writeSet jwks)) = .ok jwks := by
  refine ⟨?counted, ?decoded, Jwk.ofText_toText, Jwk.setOfText_writeSet⟩
  case counted =>
      intro header counted
      constructor
      · intro nothingCritical
        exact Header.decode_encode counted nothingCritical
      · intro names demanded
        exact Header.decode_encode_critical counted demanded
  case decoded =>
      intro segment header decoded
      exact Header.decode_encode_of_decode decoded

/-- A header with texts that must be escaped, a key of its own and the largest count. -/
def escapedHeader : Header where
  alg := "\"\\/"
  enc := some ""
  kid := some "\x00\n\x7F"
  cty := some "äλ𝄞"
  epk := some ⟨"\"", some .encryption, none, some "\t", none, none, none, none, none, none, none, none, none, none,
    none, none⟩
  p2c := some 4294967295

/-- The same header with an empty list of extensions. -/
def demandingHeader : Header := { escapedHeader with crit := some [] }

/-- The segment of an empty object is decoded to a header that is written with an empty algorithm. -/
theorem encodings_read_back_escaped :
    Header.decode escapedHeader.encode = .ok escapedHeader ∧
      Header.decode demandingHeader.encode = .error (.critical []) ∧
      Header.decode "e30" = .ok {} ∧ Header.encode {} = "eyJhbGciOiIifQ" ∧
      Header.decode "eyJhbGciOiIifQ" = .ok {} := by
  have counted : escapedHeader.Counted := by
    intro count there
    obtain rfl := Option.some.inj there
    decide
  have empty : Header.decode "e30" = .ok {} := ok_of_toOption (by decide +kernel)
  have written : Header.encode {} = "eyJhbGciOiIifQ" := by decide +kernel
  obtain ⟨again, twice, _⟩ := encodings_read_back
  obtain ⟨uncritical, _⟩ := again escapedHeader counted
  obtain ⟨_, critical⟩ := again demandingHeader (Header.Counted.of_p2c_eq escapedHeader demandingHeader rfl counted)
  obtain ⟨_, emptyAgain⟩ := twice "e30" {} empty
  refine ⟨uncritical rfl, critical [] rfl, empty, written, ?_⟩
  rw [← written]
  exact emptyAgain

end WebToken
