import AiSoc.Library.Json
import AiSoc.Library.PyStr

namespace PyJson

-- the string methods that depend on the Unicode tables
structure PyText where
  lower : String → String
  upper : String → String
  reprStr : String → String

namespace PyText

variable (py : PyText)

def reprList (items : List String) : String :=
  "[" ++ ", ".intercalate (items.map py.reprStr) ++ "]"

def normalize (s : String) : String :=
  py.lower (PyStr.strip s)

mutual

def reprText : Json → String
  | .null => "None"
  | .bool b => if b then "True" else "False"
  | .int n => String.ofList (intText n)
  | .float x => String.ofList (floatText x)
  | .infinity neg => if neg then "-inf" else "inf"
  | .nan => "nan"
  | .str s => py.reprStr s
  | .arr items => "[" ++ ", ".intercalate (reprItems items) ++ "]"
  | .obj fields => "\x7b" ++ ", ".intercalate (reprFields fields) ++ "\x7d"

def reprItems : List Json → List String
  | [] => []
  | item :: items => reprText item :: reprItems items

def reprFields : List (String × Json) → List String
  | [] => []
  | (key, value) :: fields => (py.reprStr key ++ ": " ++ reprText value) :: reprFields fields

end

-- str(value)
def str : Json → String
  | .str s => s
  | value => py.reprText value

end PyText

-- the methods on ASCII text without quotes
def asciiText : PyText where
  lower s := String.ofList (s.toList.map Char.toLower)
  upper s := String.ofList (s.toList.map Char.toUpper)
  reprStr s := "'" ++ s ++ "'"

end PyJson
