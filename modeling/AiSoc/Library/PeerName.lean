import AiSoc.Library.IpAddress

namespace IpAddress

-- inet_ntop, which writes the address of the peer of a socket

def dottedText (ip : Nat) : List Char :=
  Nat.toDigits 10 (ip / 256 ^ 3 % 256) ++ '.' :: Nat.toDigits 10 (ip / 256 ^ 2 % 256) ++
    '.' :: Nat.toDigits 10 (ip / 256 % 256) ++ '.' :: Nat.toDigits 10 (ip % 256)

def hextets (ip : Nat) : List Nat :=
  (List.range 8).map fun i => ip / 65536 ^ (7 - i) % 65536

def zerosAt (words : List Nat) (i : Nat) : Nat :=
  ((words.drop i).takeWhile fun word => word == 0).length

-- the start and the length of the first longest run of two zero words or more
def zeroRun (words : List Nat) : Option (Nat × Nat) :=
  (List.range words.length).foldl (fun best i =>
    if 2 ≤ zerosAt words i ∧ (best.map (·.2)).getD 0 < zerosAt words i then
      some (i, zerosAt words i)
    else best) none

def colons : List Nat → List Char
  | [] => []
  | [word] => Nat.toDigits 16 word
  | word :: words => Nat.toDigits 16 word ++ ':' :: colons words

def hextetText (ip : Nat) : List Char :=
  let words := hextets ip
  match zeroRun words with
  | none => colons words
  | some (base, length) =>
      if base = 0 ∧ (length = 6 ∨ length = 5 ∧ words[5]? = some 65535) then
        ':' :: ':' :: (if length = 6 then [] else "ffff:".toList) ++ dottedText (ip % 2 ^ 32)
      else colons (words.take base) ++ ':' :: ':' :: colons (words.drop (base + length))

-- the zone is not part of the text
def Address.peerText : Address → String
  | .v4 ip => String.ofList (dottedText ip)
  | .v6 ip _ => String.ofList (hextetText ip)

section Dotted

theorem splitOn_eq (sep : Char) (cs : List Char) : splitOn sep cs = cs.splitOn sep := by
  induction cs with
  | nil => rfl
  | cons c cs ih =>
      rw [splitOn, ih, List.splitOn_cons_eq_if_modifyHead]
      by_cases hsep : c = sep
      · rw [if_pos hsep, if_pos (by simpa using hsep)]
      · rw [if_neg hsep, if_neg (by simpa using hsep)]
        cases hparts : cs.splitOn sep with
        | nil => exact absurd hparts (List.splitOn_ne_nil sep cs)
        | cons part parts => rfl

theorem digitChar_isDigit {c : Char} (h : isDigit c = true) :
    Nat.digitChar (c.toNat - 48) = c ∧ c.toNat - 48 < 10 := by
  simp only [isDigit, Bool.and_eq_true, decide_eq_true_eq] at h
  refine ⟨?_, by omega⟩
  apply Char.toNat_inj.mp
  rw [Nat.toNat_digitChar_of_lt_ten (by omega)]
  omega

theorem toDigits_append_digits (cs : List Char) (n : Nat) (hn : 0 < n)
    (h : cs.all isDigit = true) :
    Nat.toDigits 10 n ++ cs =
      Nat.toDigits 10 (cs.foldl (fun n c => n * 10 + (c.toNat - 48)) n) := by
  induction cs generalizing n with
  | nil => exact List.append_nil _
  | cons c cs ih =>
      simp only [List.all_cons, Bool.and_eq_true] at h
      obtain ⟨hc, hlt⟩ := digitChar_isDigit h.1
      have hnext := ih (n * 10 + (c.toNat - 48)) (by omega) h.2
      have hdigit := @Nat.toDigits_append_toDigits 10 n (c.toNat - 48) (by decide) hn hlt
      rw [Nat.toDigits_of_lt_base hlt, hc] at hdigit
      calc
        Nat.toDigits 10 n ++ c :: cs = (Nat.toDigits 10 n ++ [c]) ++ cs := by simp
        _ = Nat.toDigits 10 (n * 10 + (c.toNat - 48)) ++ cs := by rw [hdigit, Nat.mul_comm]
        _ = _ := hnext

theorem parseOctet_text {cs : List Char} {n : Nat} (h : parseOctet cs = some n) :
    cs = Nat.toDigits 10 n ∧ n < 256 := by
  unfold parseOctet at h
  split at h
  · cases h
  · rename_i hshape
    split at h
    · cases h
    · rename_i hzero
      split at h
      · cases h
      · rename_i hlt
        obtain rfl := Option.some.inj h
        refine ⟨?_, by omega⟩
        simp only [not_or, Bool.not_eq_true] at hshape
        obtain ⟨hne, hdigits, _⟩ := hshape
        cases cs with
        | nil => exact absurd rfl hne
        | cons c cs =>
            simp only [List.all_cons, Bool.not_eq_eq_eq_not, Bool.not_false,
              Bool.and_eq_true] at hdigits
            obtain ⟨hc, hsmall⟩ := digitChar_isDigit hdigits.1
            by_cases hc0 : c = '0'
            · have hnil : c :: cs = ['0'] := by
                by_contra hother
                exact hzero ⟨hother, by rw [hc0]; rfl⟩
              rw [hnil]
              decide
            · have hpos : 0 < c.toNat - 48 := by
                rcases Nat.eq_zero_or_pos (c.toNat - 48) with h0 | hpos
                · rw [h0] at hc
                  exact absurd hc.symm hc0
                · exact hpos
              have htext := toDigits_append_digits cs (c.toNat - 48) hpos hdigits.2
              rw [Nat.toDigits_of_lt_base hsmall, hc] at htext
              simpa [decimalValue] using htext

theorem ipv4Address_text {cs : List Char} {ip : Nat} (h : ipv4Address cs = some ip) :
    cs = dottedText ip := by
  unfold ipv4Address at h
  split at h
  · rename_i a b c d hparts
    simp only [Option.bind_eq_bind, Option.bind_eq_some_iff] at h
    obtain ⟨na, ha, nb, hb, nc, hc, nd, hd, hip⟩ := h
    obtain ⟨rfl, hna⟩ := parseOctet_text ha
    obtain ⟨rfl, hnb⟩ := parseOctet_text hb
    obtain ⟨rfl, hnc⟩ := parseOctet_text hc
    obtain ⟨rfl, hnd⟩ := parseOctet_text hd
    have hjoin : ['.'].intercalate (splitOn '.' cs) = cs := by
      rw [splitOn_eq]
      exact List.intercalate_splitOn '.'
    rw [hparts] at hjoin
    obtain rfl : ((na * 256 + nb) * 256 + nc) * 256 + nd = ip := by simpa using hip
    have h3 : (((na * 256 + nb) * 256 + nc) * 256 + nd) / 256 ^ 3 % 256 = na := by omega
    have h2 : (((na * 256 + nb) * 256 + nc) * 256 + nd) / 256 ^ 2 % 256 = nb := by omega
    have h1 : (((na * 256 + nb) * 256 + nc) * 256 + nd) / 256 % 256 = nc := by omega
    have h0 : (((na * 256 + nb) * 256 + nc) * 256 + nd) % 256 = nd := by omega
    rw [dottedText, h3, h2, h1, h0, ← hjoin]
    simp [List.intercalate]
  · cases h

theorem peerText_ipv4 {s : String} {ip : Nat} (h : ipAddress s = some (.v4 ip)) :
    s = (Address.v4 ip).peerText := by
  unfold ipAddress at h
  simp only at h
  split at h
  · cases h
  · split at h
    · rename_i ip' hip
      obtain rfl := Address.v4.inj (Option.some.inj h)
      rw [Address.peerText, ← ipv4Address_text hip, String.ofList_toList]
    · simp only [ipv6Address, Option.bind_eq_bind, Option.bind_eq_some_iff] at h
      obtain ⟨p, _, ip', _, hv6⟩ := h
      cases hv6

theorem colons_ne_nil {words : List Nat} (h : words ≠ []) : colons words ≠ [] := by
  cases words with
  | nil => exact absurd rfl h
  | cons word words =>
      cases words with
      | nil => exact Nat.toDigits_ne_nil
      | cons next words => simp [colons]

theorem hextetText_ne_nil (ip : Nat) : hextetText ip ≠ [] := by
  unfold hextetText
  simp only
  split
  · exact colons_ne_nil (by simp [hextets])
  · split
    · simp
    · simp

theorem peerText_ne_empty (ip : Address) : ip.peerText ≠ "" := by
  intro h
  have hnil := congrArg String.toList h
  cases ip with
  | v4 ip => simp [Address.peerText, dottedText] at hnil
  | v6 ip scopeId =>
      rw [Address.peerText, String.toList_ofList] at hnil
      exact hextetText_ne_nil ip hnil

example : (Address.v6 (0x20010db8 * 2 ^ 96 + 7) none).peerText = "2001:db8::7" := by
  decide

end Dotted

end IpAddress
