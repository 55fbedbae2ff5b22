import Mathlib.Data.List.DropRight
import AgentPlatform.Base

/-!
# Stripped texts

`strip` leaves a part of a text that neither begins nor ends with white space, so stripping once more changes
nothing.
-/

namespace AgentPlatform

/-- A letter or a digit, in ASCII. -/
def isAlphanumeric (c : Char) : Bool :=
  (decide ('a' ≤ c) && decide (c ≤ 'z')) || (decide ('A' ≤ c) && decide (c ≤ 'Z')) || c.isDigit

theorem toList_strip (s : String) :
    (strip s).toList = (s.toList.dropWhile isSpace).rdropWhile isSpace := by
  rw [strip, String.toList_ofList, List.rdropWhile]

theorem strip_part (s : String) : (strip s).toList <:+: s.toList := by
  rw [toList_strip]
  exact (List.rdropWhile_prefix isSpace _).isInfix.trans (List.dropWhile_suffix _).isInfix

theorem length_strip_le (s : String) : (strip s).toList.length ≤ s.toList.length :=
  (strip_part s).length_le

theorem head_strip {s : String} {c : Char} (h : (strip s).toList.head? = some c) : isSpace c = false := by
  rw [toList_strip] at h
  obtain ⟨rest, hrest⟩ := List.rdropWhile_prefix isSpace (s.toList.dropWhile isSpace)
  have hhead : (s.toList.dropWhile isSpace).head? = some c := by
    rw [← hrest, List.head?_append, h]
    rfl
  have hnot := List.head?_dropWhile_not isSpace s.toList
  rw [hhead] at hnot
  simpa using hnot

theorem getLast_strip {s : String} {c : Char} (h : (strip s).toList.getLast? = some c) :
    isSpace c = false := by
  rw [toList_strip] at h
  have hne : (s.toList.dropWhile isSpace).rdropWhile isSpace ≠ [] := by
    intro hnil
    rw [hnil] at h
    cases h
  have hlast := List.rdropWhile_last_not isSpace _ hne
  rw [List.getLast?_eq_some_getLast hne, Option.some.injEq] at h
  rw [← h]
  simpa using hlast

theorem strip_of_ends {s : String} (hhead : ∀ c, s.toList.head? = some c → isSpace c = false)
    (hlast : ∀ c, s.toList.getLast? = some c → isSpace c = false) : strip s = s := by
  apply String.toList_injective
  rw [toList_strip]
  have hfront : s.toList.dropWhile isSpace = s.toList := by
    rw [List.dropWhile_eq_self_iff]
    intro hpos
    have := hhead _ (List.head?_eq_getElem? ▸ List.getElem?_eq_getElem hpos)
    simpa using this
  rw [hfront, List.rdropWhile_eq_self_iff]
  intro hne
  have := hlast _ (List.getLast?_eq_some_getLast hne)
  simpa using this

@[simp] theorem strip_strip (s : String) : strip (strip s) = strip s :=
  strip_of_ends (fun _ => head_strip) fun _ => getLast_strip

end AgentPlatform
