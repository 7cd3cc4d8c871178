import Mathlib.Data.List.DropRight
import OpenIotSdk.Model.Pigweed.Log

/-! # The file name of a log message -/

namespace OpenIotSdk.Log

/-- What follows the last slash of a path, if there is one. -/
def baseName (file : List Char) : List Char := file.rtakeWhile (· ≠ '/')

/-! ## The last slash -/

theorem baseName_suffix (file : List Char) : baseName file <:+ file :=
  List.rtakeWhile_suffix ..

theorem getElem?_baseName {file : List Char} {i : ℕ}
    (hi : file.length - (baseName file).length ≤ i) : file[i]? ≠ some '/' := by
  intro hslash
  obtain ⟨front, hfile⟩ := baseName_suffix file
  have hlen : front.length = file.length - (baseName file).length := by
    have := congrArg List.length hfile
    rw [List.length_append] at this
    omega
  rw [← hfile, List.getElem?_append_right (by omega)] at hslash
  have hmem : '/' ∈ baseName file := List.mem_of_getElem? hslash
  have hname := List.mem_rtakeWhile_imp hmem
  simp at hname

theorem getElem?_slash {file : List Char} (h : (baseName file).length < file.length) :
    file[file.length - 1 - (baseName file).length]? = some '/' := by
  have hsplit : file.rdropWhile (· ≠ '/') ++ baseName file = file :=
    List.rdropWhile_append_rtakeWhile
  have hlen := congrArg List.length hsplit
  rw [List.length_append] at hlen
  have hne : file.rdropWhile (· ≠ '/') ≠ [] := List.ne_nil_of_length_pos (by omega)
  have hlast := List.rdropWhile_last_not _ _ hne
  rw [decide_eq_true_eq, not_not] at hlast
  have hget : (file.rdropWhile (· ≠ '/'))[(file.rdropWhile (· ≠ '/')).length - 1]? = some '/' := by
    rw [← List.getLast?_eq_getElem?, List.getLast?_eq_some_getLast hne, hlast]
  have hpos := List.length_pos_of_ne_nil hne
  have hindex : file.length - 1 - (baseName file).length =
      (file.rdropWhile (· ≠ '/')).length - 1 := by omega
  rw [hindex]
  calc file[(file.rdropWhile (· ≠ '/')).length - 1]?
      = (file.rdropWhile (· ≠ '/') ++ baseName file)[(file.rdropWhile (· ≠ '/')).length - 1]? := by
        rw [hsplit]
    _ = (file.rdropWhile (· ≠ '/'))[(file.rdropWhile (· ≠ '/')).length - 1]? :=
        List.getElem?_append_left (by omega)
    _ = some '/' := hget

/-! ## The conditions of the macro -/

/-- From the helper of `index` on, when no slash has been found before it. -/
theorem fileNameFrom_eq {file : List Char} {index count : ℕ}
    (hi : 0 < index) (hle : index ≤ (baseName file).length + 2) :
    fileNameFrom file index count =
      if file.length ≤ (baseName file).length + 1 ∨ index + count ≤ (baseName file).length + 2
      then 0 else file.length - (baseName file).length := by
  induction count generalizing index with
  | zero => rw [if_pos (.inr hle), fileNameFrom]
  | succ count ih =>
      rw [fileNameFrom, fileNameHelper]
      by_cases hend : file.length + 1 ≤ index
      · rw [if_pos hend, if_pos (.inl (by omega))]
      · rw [if_neg hend]
        by_cases hname : index = (baseName file).length + 2
        · have hslash : file[file.length - 1 - (baseName file).length]? = some '/' :=
            getElem?_slash (by omega)
          rw [show file.length - 1 - (baseName file).length = file.length + 1 - index by omega]
            at hslash
          rw [if_pos hslash, if_neg (by omega)]
          omega
        · have hno : file[file.length + 1 - index]? ≠ some '/' := getElem?_baseName (by omega)
          rw [if_neg hno, ih (by omega) (by omega)]
          congr 2
          exact propext (by omega)

/-- The name is found if it has at most 37 characters, and its slash is not the first character;
else the whole path is logged. -/
theorem fileName_eq (file : List Char) :
    fileName file =
      if file.length ≤ (baseName file).length + 1 ∨ 37 < (baseName file).length then file
      else baseName file := by
  rw [fileName, fileNameFrom_eq Nat.one_pos (by omega)]
  by_cases h : file.length ≤ (baseName file).length + 1 ∨ 37 < (baseName file).length
  · rw [if_pos h, if_pos (h.imp_right fun _ => by omega), List.drop_zero]
  · rw [if_neg h, if_neg (by omega)]
    exact (List.suffix_iff_eq_drop.mp (baseName_suffix file)).symm

end OpenIotSdk.Log
