import AiSoc.Library.PyStr
import AiSoc.Library.Regex

namespace Evidence

open Regex

-- the characters that \w matches in a str pattern, with the ones a proof depends on
structure CharClasses where
  isWord : Char → Bool
  ascii : ∀ c : Char, c.toNat < 128 → isWord c = (c.isAlphanum || c == '_')
  longS : isWord (Char.ofNat 0x17f) = true

def asciiClasses : CharClasses where
  isWord c := c.isAlphanum || c == '_' || c == Char.ofNat 0x17f
  ascii c h := by
    have hne : (c == Char.ofNat 0x17f) = false := by
      rw [beq_eq_false_iff_ne]
      rintro rfl
      revert h
      decide
    rw [hne, Bool.or_false]
  longS := by decide

-- what a letter of a pattern matches under (?i)
def caseVariants (letter : Char) : List Char :=
  if letter = 'i' then ['i', 'I', Char.ofNat 0x130, Char.ofNat 0x131]
  else if letter = 's' then ['s', 'S', Char.ofNat 0x17f]
  else if letter = 'k' then ['k', 'K', Char.ofNat 0x212a]
  else [letter, letter.toUpper]

def ignoreCase (letter c : Char) : Bool :=
  (caseVariants letter).contains c

def litIgnoreCase (cs : List Char) : Pattern :=
  cs.foldr (fun letter r => .seq (.one (ignoreCase letter)) r) .empty

section Classes

def isUpper (c : Char) : Bool :=
  'A' ≤ c && c ≤ 'Z'

def isUpperOrDigit (c : Char) : Bool :=
  isUpper c || ('0' ≤ c && c ≤ '9')

def isSeparator (c : Char) : Bool :=
  c == ':' || c == '='

-- [^\s,;]
def isValue (c : Char) : Bool :=
  !(PyStr.isSpace c || c == ',' || c == ';')

-- [A-Za-z0-9._~+/-] under (?i)
def isToken (c : Char) : Bool :=
  c.isAlphanum || ['.', '_', '~', '+', '/', '-'].contains c ||
    (caseVariants 'i').contains c || (caseVariants 's').contains c || (caseVariants 'k').contains c

-- [A-Z ]
def isLabel (c : Char) : Bool :=
  isUpper c || c == ' '

end Classes

section Patterns

def accessKeyId : Pattern :=
  .seq .boundary (.seq (.alt (.lit ['A', 'K', 'I', 'A']) (.lit ['A', 'S', 'I', 'A']))
    (.seq (.times isUpperOrDigit 16) .boundary))

def apiKey : Pattern :=
  .seq (litIgnoreCase ['a', 'p', 'i'])
    (.seq (.opt fun c => c == '_' || c == '-') (litIgnoreCase ['k', 'e', 'y']))

def keyName : Pattern :=
  .alt (litIgnoreCase ['p', 'a', 's', 's', 'w', 'o', 'r', 'd'])
    (.alt (litIgnoreCase ['s', 'e', 'c', 'r', 'e', 't'])
      (.alt (litIgnoreCase ['t', 'o', 'k', 'e', 'n']) apiKey))

def keyedSecret : Pattern :=
  .seq .boundary (.seq keyName
    (.seq (.star PyStr.isSpace) (.seq (.one isSeparator)
      (.seq (.star PyStr.isSpace) (.plus isValue)))))

def bearerToken : Pattern :=
  .seq .boundary (.seq (litIgnoreCase ['b', 'e', 'a', 'r', 'e', 'r'])
    (.seq (.plus PyStr.isSpace) (.plus isToken)))

def armorLine (kind : List Char) : Pattern :=
  .seq (.lit (['-', '-', '-', '-', '-'] ++ kind ++ [' '])) (.seq (.star isLabel)
    (.lit ['P', 'R', 'I', 'V', 'A', 'T', 'E', ' ', 'K', 'E', 'Y', '-', '-', '-', '-', '-']))

def privateKeyBlock : Pattern :=
  .seq (armorLine ['B', 'E', 'G', 'I', 'N']) (.seq (.lazy fun _ => true)
    (armorLine ['E', 'N', 'D']))

def secretPatterns : List Pattern :=
  [accessKeyId, keyedSecret, bearerToken, privateKeyBlock]

end Patterns

section Redact

-- [REDACTED]
def redactionMark : List Char :=
  ['[', 'R', 'E', 'D', 'A', 'C', 'T', 'E', 'D', ']']

variable (classes : CharClasses)

def redactWith (patterns : List Pattern) (value : List Char) : List Char :=
  patterns.foldl (fun redacted pattern => sub classes.isWord pattern redactionMark redacted) value

def redactSecrets (value : String) : String × Bool :=
  let redacted := String.ofList (redactWith classes secretPatterns value.toList)
  (redacted, redacted ≠ value)

end Redact

end Evidence
