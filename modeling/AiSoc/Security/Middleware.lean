import AiSoc.Library.Varchar

namespace Middleware

-- the denylist key that dispatch looks up for the host of the client
def dispatchKey : Option String → Option String
  | some clientIp => if clientIp = "" then none else some ("ai_soc:denylist:ip:" ++ clientIp)
  | none => none

-- the id that dispatch gives the request, from its X-Request-ID header
def requestId (uuid4 : Nat) (header : String) : String :=
  let given := PyStr.slice 128 header
  if given = "" then PyStr.uuidText uuid4 else given

theorem dispatchKey_some {clientIp : String} (h : clientIp ≠ "") :
    dispatchKey (some clientIp) = some ("ai_soc:denylist:ip:" ++ clientIp) :=
  if_neg h

theorem requestId_storable (uuid4 : Nat) (header : String) {n : Nat} (huuid : 36 ≤ n)
    (hcut : n < 128) :
    Sql.Storable n (requestId uuid4 header) ↔ Sql.Storable n header := by
  have hslice := PyStr.length_slice 128 header
  unfold requestId
  simp only
  split
  · rename_i hempty
    rw [hempty, String.length_empty] at hslice
    have hheader : header = "" := String.length_eq_zero_iff.1 (by omega)
    subst hheader
    constructor
    · intro _
      exact ⟨Nat.zero_le n, by decide⟩
    · intro _
      exact Sql.storable_uuidText uuid4 huuid
  · constructor
    · intro h
      have hlength := h.fits
      rw [hslice] at hlength
      have hshort : header.toList.length ≤ 128 := by
        rw [String.length_toList]
        omega
      have hwhole : PyStr.slice 128 header = header := by
        rw [PyStr.slice, List.take_of_length_le hshort, String.ofList_toList]
      exact hwhole ▸ h
    · intro h
      have hwhole : PyStr.slice 128 header = header := by
        rw [PyStr.slice, List.take_of_length_le, String.ofList_toList]
        rw [String.length_toList]
        exact Nat.le_of_lt (Nat.lt_of_le_of_lt h.fits hcut)
      exact hwhole.symm ▸ h

end Middleware
