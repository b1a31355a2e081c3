import Nexus.Go.Http
import Nexus.Go.JsonText
import Nexus.Go.TimeFormat
import Mathlib.Data.List.Sort

/-! What `json.NewEncoder(w).Encode` writes for the values of `Http`, strings as
`json.Marshal` writes them, and the text of a response. -/

set_option autoImplicit false

namespace Nexus.Go

open JsonText (appendString appendInt quote)

mutual

def encode : Json → List Char
  | .str value => appendString value
  | .num value => appendInt value
  | .bool value => if value then "true".toList else "false".toList
  | .time value => quote :: Time.format value ++ [quote]
  | .arr items => '[' :: encodeItems items ++ [']']
  | .obj fields => '{' :: encodeFields fields ++ ['}']

def encodeItems : List Json → List Char
  | [] => []
  | [item] => encode item
  | item :: next :: items => encode item ++ ',' :: encodeItems (next :: items)

def encodeField : String × Json → List Char
  | (name, value) => appendString name ++ ':' :: encode value

def encodeFields : List (String × Json) → List Char
  | [] => []
  | [field] => encodeField field
  | field :: next :: fields => encodeField field ++ ',' :: encodeFields (next :: fields)

end

mutual

/-- Whether encoding succeeds. -/
def Json.marshals : Json → Bool
  | .str _ | .num _ | .bool _ => true
  | .time value => Time.marshals value
  | .arr items => itemsMarshal items
  | .obj fields => fieldsMarshal fields

def itemsMarshal : List Json → Bool
  | [] => true
  | item :: items => item.marshals && itemsMarshal items

def fieldMarshals : String × Json → Bool
  | (_, value) => value.marshals

def fieldsMarshal : List (String × Json) → Bool
  | [] => true
  | field :: fields => fieldMarshals field && fieldsMarshal fields

end

/-! ## Maps -/

def Json.sortKeys : Json → Json
  | .obj fields => .obj (fields.insertionSort fun field other => field.1 ≤ other.1)
  | value => value

mutual

/-- The keys of a map are sorted. The metadata of an event is the one map whose
entries may be listed in another order. -/
def Json.sortMaps : Json → Json
  | .str value => .str value
  | .num value => .num value
  | .bool value => .bool value
  | .time value => .time value
  | .arr items => .arr (sortItems items)
  | .obj fields => .obj (sortFields fields)

def sortItems : List Json → List Json
  | [] => []
  | item :: items => item.sortMaps :: sortItems items

def sortField : String × Json → String × Json
  | (name, value) => (name, if name = "metadata" then value.sortKeys else value.sortMaps)

def sortFields : List (String × Json) → List (String × Json)
  | [] => []
  | field :: fields => sortField field :: sortFields fields

end

/-- A value that cannot be encoded leaves the body empty, the status being sent
before. -/
def Body.text : Body → String
  | .json value =>
      if value.marshals then String.ofList (encode value.sortMaps ++ [Char.ofNat 0x0A]) else ""
  | .raw text => text

end Nexus.Go
