import WebToken.Key.Jwk
import WebToken.Proofs.Json.Records

/-!
Key documents: the text of a key document is read back as the document.
-/

namespace WebToken

open Json

theorem KeyUse.ofName?_name (use : KeyUse) : KeyUse.ofName? use.name = some use := by
  cases use <;> rfl

theorem KeyUse.reads (use : KeyUse) : Reads KeyUse.read (Text.quote use.name) use := by
  refine ⟨_, .quote use.name, ?_, nofun⟩
  rw [KeyUse.read, KeyUse.ofNode, Json.Body.read_quoted, ok_bind, KeyUse.ofName?_name]

namespace Jwk

def slots (jwk : Jwk) : List (String × Option (List Char)) :=
  [("kty", some (Text.quote jwk.kty)), ("use", jwk.use.map fun use => Text.quote use.name),
    ("kid", jwk.kid.map Text.quote), ("alg", jwk.alg.map Text.quote), ("k", jwk.k.map Text.quote),
    ("crv", jwk.crv.map Text.quote), ("x", jwk.x.map Text.quote), ("y", jwk.y.map Text.quote),
    ("d", jwk.d.map Text.quote), ("n", jwk.n.map Text.quote), ("e", jwk.e.map Text.quote),
    ("p", jwk.p.map Text.quote), ("q", jwk.q.map Text.quote), ("dp", jwk.dp.map Text.quote),
    ("dq", jwk.dq.map Text.quote), ("qi", jwk.qi.map Text.quote)]

theorem map_quote_filterMap (slots : List (String × Option String)) :
    ((slots.filterMap fun member => member.2.map fun value => (member.1, value)).map fun entry =>
        (entry.1, Text.quote entry.2)) =
      Json.given (slots.map fun member => (member.1, member.2.map Text.quote)) := by
  rw [Json.given, List.map_filterMap, List.filterMap_map]
  congr
  funext ⟨name, value⟩
  cases value <;> rfl

theorem write_eq (jwk : Jwk) : jwk.write = Text.members (Json.given jwk.slots) := by
  rw [write, entries, map_quote_filterMap, slots]
  simp only [List.map_cons, List.map_nil, Option.map_some, Option.map_map]
  rfl

theorem writes (jwk : Jwk) : Writes (fields KeyUse.read) jwk.slots { kty := "" } jwk := by
  unfold fields slots
  refine .of (.text jwk.kty) ?_
  dsimp only
  refine .optional ?_ ?_ ?_
  · exact fun use _ => use.reads
  · rfl
  dsimp only
  -- Every other member is a text, and is not there before it is read.
  iterate 14
    refine .optional ?_ ?_ ?_
    · exact fun value _ => .text value
    · rfl
    dsimp only
  exact .nil jwk

theorem reads (jwk : Jwk) : Reads read jwk.write jwk := by
  rw [write_eq]
  exact jwk.writes.read (by decide) Json.Record.skipOther

end Jwk

end WebToken
