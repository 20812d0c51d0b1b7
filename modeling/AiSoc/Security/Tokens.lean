import AiSoc.Auth.Service
import AiSoc.Library.PyFields

namespace Tokens

open PyStr

section Secrets

-- the ids of the program: 128 bits
abbrev UuidValue := Fin (2 ^ 128)

def str (id : UuidValue) : String :=
  uuidText id.val

def isUrlsafe (c : Char) : Bool :=
  c.isAlphanum || c = '-' || c = '_'

def isHex (c : Char) : Bool :=
  c.isDigit || ('a' ≤ c && c ≤ 'f')

-- a text over the alphabet of the URL-safe base64 code
structure UrlsafeToken where
  value : String
  nonempty : value ≠ ""
  urlsafe : ∀ c ∈ value.toList, isUrlsafe c = true

structure HexToken where
  value : String
  nonempty : value ≠ ""
  hex : ∀ c ∈ value.toList, isHex c = true

def urlsafeDigits : List Char :=
  "ABCDEFGHIJKLMNOPQRSTUVWXYZabcdefghijklmnopqrstuvwxyz0123456789-_".toList

def urlsafeDigit (n : Nat) : Char :=
  urlsafeDigits.getD (n % 64) 'A'

-- base64.urlsafe_b64encode(bytes).rstrip(b"=")
def urlsafeB64encode : List UInt8 → List Char
  | [] => []
  | [a] => [urlsafeDigit (a.toNat / 4), urlsafeDigit (a.toNat * 16)]
  | [a, b] =>
      [urlsafeDigit (a.toNat / 4), urlsafeDigit (a.toNat * 16 + b.toNat / 16),
        urlsafeDigit (b.toNat * 4)]
  | a :: b :: c :: bytes =>
      urlsafeDigit (a.toNat / 4) :: urlsafeDigit (a.toNat * 16 + b.toNat / 16) ::
        urlsafeDigit (b.toNat * 4 + c.toNat / 64) :: urlsafeDigit c.toNat :: urlsafeB64encode bytes

-- bytes.hex()
def hexlify (bytes : List UInt8) : List Char :=
  bytes.flatMap fun byte => hexText 2 byte.toNat

theorem isUrlsafe_digit (n : Nat) : isUrlsafe (urlsafeDigit n) = true := by
  have hall : urlsafeDigits.all isUrlsafe = true := by decide
  have hlt : n % 64 < urlsafeDigits.length := Nat.mod_lt n (by decide)
  rw [urlsafeDigit, List.getD_eq_getElem?_getD, List.getElem?_eq_getElem hlt, Option.getD_some]
  exact List.all_eq_true.mp hall _ (List.getElem_mem hlt)

theorem isHex_hexDigit {d : Nat} (h : d < 16) : isHex (hexDigit d) = true := by
  have hall : ∀ d < 16, isHex (hexDigit d) = true := by decide
  exact hall d h

theorem urlsafe_urlsafeB64encode (bytes : List UInt8) :
    ∀ c ∈ urlsafeB64encode bytes, isUrlsafe c = true := by
  fun_induction urlsafeB64encode bytes with
  | case1 => nofun
  | case2 a =>
      intro c hc
      simp only [List.mem_cons, List.not_mem_nil, or_false] at hc
      rcases hc with rfl | rfl <;> exact isUrlsafe_digit _
  | case3 a b =>
      intro c hc
      simp only [List.mem_cons, List.not_mem_nil, or_false] at hc
      rcases hc with rfl | rfl | rfl <;> exact isUrlsafe_digit _
  | case4 a b d bytes ih =>
      intro c hc
      simp only [List.mem_cons] at hc
      rcases hc with rfl | rfl | rfl | rfl | hc
      · exact isUrlsafe_digit _
      · exact isUrlsafe_digit _
      · exact isUrlsafe_digit _
      · exact isUrlsafe_digit _
      · exact ih c hc

theorem urlsafeB64encode_ne_nil {bytes : List UInt8} (h : bytes ≠ []) :
    urlsafeB64encode bytes ≠ [] := by
  fun_cases urlsafeB64encode bytes with
  | case1 => exact absurd rfl h
  | case2 a => exact List.cons_ne_nil _ _
  | case3 a b => exact List.cons_ne_nil _ _
  | case4 a b d bytes => exact List.cons_ne_nil _ _

theorem ofList_ne_empty {cs : List Char} (h : cs ≠ []) : String.ofList cs ≠ "" := by
  intro heq
  have hlist := congrArg String.toList heq
  rw [String.toList_ofList] at hlist
  exact h hlist

abbrev RandomBytes := {bytes : List UInt8 // bytes ≠ []}

-- secrets.token_urlsafe(n) for the n random bytes it draws
def tokenUrlsafe (bytes : RandomBytes) : UrlsafeToken where
  value := String.ofList (urlsafeB64encode bytes.1)
  nonempty := ofList_ne_empty (urlsafeB64encode_ne_nil bytes.2)
  urlsafe := by
    rw [String.toList_ofList]
    exact urlsafe_urlsafeB64encode bytes.1

-- secrets.token_hex(n)
def tokenHex (bytes : RandomBytes) : HexToken where
  value := String.ofList (hexlify bytes.1)
  nonempty := by
    obtain ⟨byte, rest, hbytes⟩ := List.exists_cons_of_ne_nil bytes.2
    apply ofList_ne_empty
    rw [hexlify, hbytes, List.flatMap_cons]
    intro hnil
    have hlength := length_hexText 2 byte.toNat
    rw [(List.append_eq_nil_iff.mp hnil).1] at hlength
    cases hlength
  hex := by
    rw [String.toList_ofList]
    intro c hc
    obtain ⟨byte, _, hbyte⟩ := List.mem_flatMap.mp hc
    obtain ⟨d, hd, rfl⟩ := mem_hexText hbyte
    exact isHex_hexDigit hd

end Secrets

section Formats

variable (hashSecret : String → String)

def refreshToken (sessionId : UuidValue) (secret : UrlsafeToken) : String :=
  str sessionId ++ "." ++ secret.value

def apiKey (keyPrefix : HexToken) (secret : UrlsafeToken) : String :=
  "aisoc_" ++ keyPrefix.value ++ "_" ++ secret.value

-- the 48 random bytes are an argument
def generateRefreshToken (sessionId : UuidValue) (random : RandomBytes) : String × String :=
  let secret := tokenUrlsafe random
  (refreshToken sessionId secret, hashSecret secret.value)

-- 4 random bytes for the prefix and 32 for the secret
def generateApiKey (prefixRandom random : RandomBytes) : String × String × String :=
  let keyPrefix := tokenHex prefixRandom
  let secret := tokenUrlsafe random
  (apiKey keyPrefix secret, keyPrefix.value, hashSecret secret.value)

def parseApiKey (value : String) : Option (String × String) :=
  match split '_' 2 value.toList with
  | [marker, keyPrefix, secret] =>
      if String.ofList marker ≠ "aisoc" ∨ keyPrefix = [] ∨ secret = [] then none
      else some (String.ofList keyPrefix, String.ofList secret)
  | _ => none

variable {hashSecret}

theorem not_mem_hexToken {c : Char} (h : isHex c = false) (token : HexToken) :
    c ∉ token.value.toList := by
  intro hmem
  rw [token.hex c hmem] at h
  cases h

theorem parseRefreshToken_refreshToken (sessionId : UuidValue) (secret : UrlsafeToken) :
    Auth.parseRefreshToken (refreshToken sessionId secret) = some (sessionId.val, secret.value) := by
  have hdot : ∀ c ∈ (str sessionId).toList, decide (c ≠ '.') = true := by
    intro c hc
    exact decide_eq_true fun heq => not_mem_uuidText (by decide) sessionId.val (heq ▸ hc)
  have htext : (refreshToken sessionId secret).toList =
      (str sessionId).toList ++ '.' :: secret.value.toList := by
    simp [refreshToken]
  have htake : (refreshToken sessionId secret).toList.takeWhile (· ≠ '.') =
      (str sessionId).toList := by
    rw [htext, List.takeWhile_append_of_pos hdot, List.takeWhile_cons_of_neg (by simp),
      List.append_nil]
  have hdrop : (refreshToken sessionId secret).toList.drop (str sessionId).toList.length =
      '.' :: secret.value.toList := by
    rw [htext, List.drop_left]
  have huuid : PyStr.uuid (str sessionId) = some sessionId.val := uuid_uuidText sessionId.isLt
  simp only [Auth.parseRefreshToken, htake, hdrop, String.ofList_toList, huuid, Option.map_some]

example (sessionId : UuidValue) (random : RandomBytes) :
    Auth.parseRefreshToken (generateRefreshToken hashSecret sessionId random).1 =
      some (sessionId.val, (tokenUrlsafe random).value) :=
  parseRefreshToken_refreshToken sessionId _

theorem parseApiKey_apiKey (keyPrefix : HexToken) (secret : UrlsafeToken) :
    parseApiKey (apiKey keyPrefix secret) = some (keyPrefix.value, secret.value) := by
  have hmarker : '_' ∉ ("aisoc" : String).toList := by decide
  have hkeyPrefix : '_' ∉ keyPrefix.value.toList := not_mem_hexToken (by decide) keyPrefix
  have htext : (apiKey keyPrefix secret).toList =
      ("aisoc" : String).toList ++ '_' :: (keyPrefix.value.toList ++ '_' :: secret.value.toList) := by
    simp [apiKey]
  have hsplit : split '_' 2 (apiKey keyPrefix secret).toList =
      [("aisoc" : String).toList, keyPrefix.value.toList, secret.value.toList] := by
    rw [htext, split_append hmarker, split_append hkeyPrefix, split]
  have hpresent : ¬(String.ofList ("aisoc" : String).toList ≠ "aisoc" ∨
      keyPrefix.value.toList = [] ∨ secret.value.toList = []) := by
    rw [String.ofList_toList]
    rintro (hne | hempty | hempty)
    · exact hne rfl
    · exact keyPrefix.nonempty (String.toList_eq_nil_iff.mp hempty)
    · exact secret.nonempty (String.toList_eq_nil_iff.mp hempty)
  simp only [parseApiKey, hsplit]
  rw [if_neg hpresent, String.ofList_toList, String.ofList_toList]

example : parseApiKey "aisoc_0f_-_a__" = some ("0f", "-_a__") := by decide

end Formats

end Tokens
