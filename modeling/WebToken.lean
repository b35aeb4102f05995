import WebToken.Claims.Policy
import WebToken.Token.Decode
import WebToken.Token.Encode
import WebToken.Proofs.Algorithm
import WebToken.Proofs.Jws.Parsing
import WebToken.Proofs.Text.Utf8
import WebToken.Proofs.Token.Acceptance
import WebToken.Proofs.Json.Strings
import WebToken.Proofs.Json.Numbers
import WebToken.Proofs.Json.Spelling
import WebToken.Proofs.Json.Records
import WebToken.Proofs.Key.Document
import WebToken.Proofs.Header
import WebToken.Proofs.Jws.Document
import WebToken.Proofs.Jws.RoundTrip
import WebToken.Proofs.Cipher.Aes
import WebToken.Proofs.Cipher.KeyWrap
import WebToken.Proofs.Cipher.CbcHmac
import WebToken.Proofs.Cipher.Gcm
import WebToken.Proofs.Content
import WebToken.Proofs.Key.Material
import WebToken.Proofs.Rsa.Encryption
import WebToken.Proofs.Number.Modular
import WebToken.Proofs.Rsa.Key
import WebToken.Proofs.Rsa.Signature
import WebToken.Proofs.Jwe.Parsing
import WebToken.Proofs.Jwe.RoundTrip
import WebToken.Proofs.Key.Set
import WebToken.Proofs.Key.Source
import WebToken.Proofs.Token.RoundTrip
import WebToken.Proofs.Hash.Sha2
import WebToken.Proofs.Jwe.Disclosure
import WebToken.Proofs.Token.Stages
import WebToken.Proofs.Token.Confusion
import WebToken.Proofs.Token.KeyChoice
import WebToken.Proofs.Token.Unprotected
import WebToken.Proofs.Jws.Refusal
import WebToken.Proofs.Jwe.Compact
import WebToken.Proofs.Jws.Compact
import WebToken.Proofs.Json.Members
import WebToken.Proofs.Token.Critical
import WebToken.Proofs.Jws.Signatures
import WebToken.Proofs.Key.RoundTrip
import WebToken.Proofs.Key.SetDocument
import WebToken.Proofs.Token.KeyUse
import WebToken.Proofs.Json.Objects
import WebToken.Proofs.Jws.Serializations
import WebToken.Proofs.Text.Order
import WebToken.Proofs.Key.History
import WebToken.Proofs.Key.Publishing
import WebToken.Proofs.Key.Rotation
import WebToken.Proofs.Table
import WebToken.Proofs.Claims.Agreement
import WebToken.Proofs.Claims.Verdict
import WebToken.Proofs.Claims.Window
import WebToken.Proofs.Json.Double
import WebToken.Proofs.Claims.NumericDate
import WebToken.Proofs.Claims.Policy
import WebToken.Proofs.Claims.RoundTrip
import WebToken.Proofs.Jwe.Authenticity
import WebToken.Proofs.Hash.ConcatKdf
import WebToken.Proofs.KeyAgreement
import WebToken.Proofs.Jwe.Padding
import WebToken.Proofs.Key.PublicSide
import WebToken.Proofs.Token.Refusal
import WebToken.Proofs.Encoding
import WebToken.Proofs.Json.Grammar
import WebToken.Proofs.Json.Tokens
import WebToken.Proofs.Json.Recognition
import WebToken.Proofs.Token.HeaderText
import WebToken.Proofs.Jws.Likeness
import WebToken.Proofs.Key.PublicMembers
import WebToken.Proofs.Key.SourceAgreement
import WebToken.Proofs.Jwe.Shape
import WebToken.Proofs.Token.Making
import WebToken.Proofs.Text.Words
import WebToken.Proofs.Claims.Granting
