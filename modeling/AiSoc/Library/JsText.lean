import AiSoc.Library.PyStr

namespace JsText

open PyStr (hexText)

-- what String.prototype.trim takes away
def whitespace : List Nat :=
  [0x09, 0x0a, 0x0b, 0x0c, 0x0d, 0x20, 0xa0, 0x1680, 0x2000, 0x2001, 0x2002, 0x2003, 0x2004,
    0x2005, 0x2006, 0x2007, 0x2008, 0x2009, 0x200a, 0x2028, 0x2029, 0x202f, 0x205f, 0x3000,
    0xfeff]

def trim (s : String) : String :=
  PyStr.stripIf (fun c => whitespace.contains c.toNat) s

-- new TextEncoder().encode(s)
def encode (s : String) : List UInt8 :=
  s.toByteArray.data.toList

-- toString(16).padStart(2, "0") of each byte
def hexBytes (bytes : List UInt8) : List Char :=
  bytes.flatMap fun b => hexText 2 b.toNat

theorem hexBytes_cons (b : UInt8) (bytes : List UInt8) :
    hexBytes (b :: bytes) = hexText 2 b.toNat ++ hexBytes bytes := rfl

theorem length_hexBytes (bytes : List UInt8) : (hexBytes bytes).length = 2 * bytes.length := by
  induction bytes with
  | nil => rfl
  | cons b bytes ih =>
      rw [hexBytes_cons, List.length_append, PyStr.length_hexText, ih, List.length_cons]
      omega

theorem hexBytes_inj {bytes bytes' : List UInt8} (h : hexBytes bytes = hexBytes bytes') :
    bytes = bytes' := by
  induction bytes generalizing bytes' with
  | nil =>
      have hlength := congrArg List.length h
      rw [length_hexBytes, length_hexBytes, List.length_nil] at hlength
      exact (List.length_eq_zero_iff.mp (by omega)).symm
  | cons b bytes ih =>
      cases bytes' with
      | nil =>
          have hlength := congrArg List.length h
          rw [length_hexBytes, length_hexBytes, List.length_cons, List.length_nil] at hlength
          omega
      | cons b' bytes' =>
          rw [hexBytes_cons, hexBytes_cons] at h
          have hlength : (hexText 2 b.toNat).length = (hexText 2 b'.toNat).length := by
            rw [PyStr.length_hexText, PyStr.length_hexText]
          obtain ⟨hfirst, hrest⟩ := List.append_inj h hlength
          have hb := PyStr.hexText_inj b.toNat_lt b'.toNat_lt hfirst
          rw [UInt8.toNat_inj.mp hb, ih hrest]

end JsText
