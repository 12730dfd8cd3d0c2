import WattPost.Cloud.ExtrasTrim
import WattPost.Cloud.JsonDumps

/-! `json.dumps` as it comes: the separators have a blank, and what is not ASCII is escaped. The
text is printable, so that a line holds it. -/
namespace WattPost.Cloud.JsonText

open ExtrasTrim (asciiChar asciiString unitEscape)

mutual

def encode : Json → List Char
  | .null => "null".toList
  | .bool b => (if b then "true" else "false").toList
  | .int n => (toString n).toList
  | .float literal => (Json.floatText literal).toList
  | .str s => asciiString s
  | .arr values => '[' :: ((encodeAll values).intersperse [',', ' ']).flatten ++ [']']
  | .obj fields => '\x7b' :: ((encodeFields fields).intersperse [',', ' ']).flatten ++ ['\x7d']

def encodeAll : List Json → List (List Char)
  | [] => []
  | value :: values => encode value :: encodeAll values

def encodeFields : List (String × Json) → List (List Char)
  | [] => []
  | (name, value) :: fields =>
      (asciiString name ++ [':', ' '] ++ encode value) :: encodeFields fields

end

/-- `json.dumps(j)`. -/
def dumps (j : Json) : String := String.ofList (encode j)

end WattPost.Cloud.JsonText
