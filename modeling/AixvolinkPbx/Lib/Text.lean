import Mathlib.Algebra.Order.Ring.Int

/-!
# Text functions

The string functions of the Go standard library that the programs use, on the characters of a text:
splitting at separators and at white space, decimal numbers, ASCII case.
-/

namespace Text

/-- `unicode.IsSpace`. -/
def isSpace (c : Char) : Bool :=
  let n := c.toNat
  (9 ≤ n && n ≤ 13) || n = 32 || n = 0x85 || n = 0xA0 || n = 0x1680 ||
    (0x2000 ≤ n && n ≤ 0x200A) || n = 0x2028 || n = 0x2029 || n = 0x202F || n = 0x205F || n = 0x3000

/-- `strings.Fields`: the maximal pieces without white space. -/
def fields (s : String) : List String :=
  ((s.toList.splitOnP isSpace).filter (· ≠ [])).map String.ofList

/-- `strings.Split` at a separator of one character. -/
def split (sep : Char) (s : String) : List String := (s.toList.splitOn sep).map String.ofList

/-- The value of decimal digits. -/
def digits (cs : List Char) : ℕ := cs.foldl (fun n c => n * 10 + (c.toNat - '0'.toNat)) 0

def parseUint (bits : ℕ) (s : String) : Option ℕ :=
  if s.toList = [] ∨ ¬ s.toList.all Char.isDigit then none
  else if digits s.toList < 2 ^ bits then some (digits s.toList)
  else none

def parseInt (bits : ℕ) (s : String) : Option ℤ :=
  match s.toList with
  | '-' :: cs =>
    (parseUint bits (String.ofList cs)).bind fun n => if n ≤ 2 ^ (bits - 1) then some (-n) else none
  | '+' :: cs =>
    (parseUint bits (String.ofList cs)).bind fun n => if n < 2 ^ (bits - 1) then some n else none
  | cs =>
    (parseUint bits (String.ofList cs)).bind fun n => if n < 2 ^ (bits - 1) then some n else none

def itoa (n : ℕ) : String := toString n

/-- `strings.ToUpper` on ASCII letters. -/
def toUpper (s : String) : String := String.ofList (s.toList.map Char.toUpper)

/-- `strings.ToLower` on ASCII letters. -/
def toLower (s : String) : String := String.ofList (s.toList.map Char.toLower)

/-! ## Numbers written and read back -/

theorem itoa_toList (n : ℕ) : (itoa n).toList = Nat.toDigits 10 n := by
  rw [itoa, Nat.toString_eq_ofList_toDigits, String.toList_ofList]

theorem isDigit_of_mem_itoa {n : ℕ} {c : Char} (h : c ∈ (itoa n).toList) : c.isDigit = true := by
  rw [itoa_toList] at h
  exact Nat.isDigit_of_mem_toDigits (by decide) (by decide) h

theorem digits_toDigits (n : ℕ) : digits (Nat.toDigits 10 n) = n := by
  have hread := Nat.ofDigitChars_ten_toDigits (n := n)
  rw [Nat.ofDigitChars_eq_foldl] at hread
  simpa only [digits, Nat.mul_comm] using hread

theorem parseUint_itoa {bits n : ℕ} (h : n < 2 ^ bits) : parseUint bits (itoa n) = some n := by
  have hdigits : ¬((itoa n).toList = [] ∨ ¬(itoa n).toList.all Char.isDigit) := by
    rintro (hnil | hall)
    · rw [itoa_toList] at hnil
      exact Nat.toDigits_ne_nil hnil
    · exact hall (List.all_eq_true.mpr fun c hc => isDigit_of_mem_itoa hc)
  have hvalue : digits (itoa n).toList = n := by
    rw [itoa_toList, digits_toDigits]
  rw [parseUint, if_neg hdigits, hvalue, if_pos h]

theorem lt_of_parseUint {bits n : ℕ} {s : String} (h : parseUint bits s = some n) : n < 2 ^ bits := by
  unfold parseUint at h
  split_ifs at h with hdigits hlt
  exact Option.some.inj h ▸ hlt

/-- A number is read back as a signed one exactly if it fits. -/
theorem parseInt_itoa (bits n : ℕ) :
    parseInt bits (itoa n) = if n < 2 ^ (bits - 1) then some (n : ℤ) else none := by
  have hparse : parseInt bits (itoa n) =
      (parseUint bits (itoa n)).bind fun n => if n < 2 ^ (bits - 1) then some (n : ℤ) else none := by
    have hsign : ∀ c cs, (itoa n).toList = c :: cs → c ≠ '-' ∧ c ≠ '+' := by
      intro c cs hcs
      have hdigit := isDigit_of_mem_itoa (n := n) (hcs ▸ List.mem_cons_self)
      constructor
      · rintro rfl
        cases hdigit
      · rintro rfl
        cases hdigit
    unfold parseInt
    split
    · next cs hcs => exact absurd rfl (hsign _ cs hcs).1
    · next cs hcs => exact absurd rfl (hsign _ cs hcs).2
    · rw [String.ofList_toList]
  have hpow : (2 : ℕ) ^ (bits - 1) ≤ 2 ^ bits := Nat.pow_le_pow_right (by decide) (Nat.sub_le _ _)
  rw [hparse]
  split_ifs with hlt
  · rw [parseUint_itoa (hlt.trans_le hpow), Option.bind_some, if_pos hlt]
  · rw [Option.bind_eq_none_iff]
    intro m hm
    have hm : m = n := by
      unfold parseUint at hm
      split_ifs at hm
      rw [← Option.some.inj hm, itoa_toList, digits_toDigits]
    rw [hm, if_neg hlt]

/-! ## Pieces joined and split again -/

def Solid (s : String) : Prop := s ≠ "" ∧ ∀ c ∈ s.toList, isSpace c = false

theorem isSpace_of_isDigit {c : Char} (h : c.isDigit = true) : isSpace c = false := by
  simp only [Char.isDigit, ge_iff_le, Bool.and_eq_true, decide_eq_true_eq, UInt32.le_iff_toNat_le] at h
  have hlow : 48 ≤ c.toNat := h.1
  have hhigh : c.toNat ≤ 57 := h.2
  simp only [isSpace, Bool.or_eq_false_iff, Bool.and_eq_false_iff, decide_eq_false_iff_not]
  omega

theorem solid_itoa (n : ℕ) : Solid (itoa n) := by
  constructor
  · intro hempty
    have hnil := congrArg String.toList hempty
    rw [itoa_toList] at hnil
    exact Nat.toDigits_ne_nil hnil
  · exact fun c hc => isSpace_of_isDigit (isDigit_of_mem_itoa hc)

theorem Solid.append {s t : String} (hs : Solid s) (ht : ∀ c ∈ t.toList, isSpace c = false) :
    Solid (s ++ t) := by
  constructor
  · intro hempty
    have hnil := congrArg String.toList hempty
    rw [String.toList_append] at hnil
    exact hs.1 (String.toList_inj.mp (List.append_eq_nil_iff.mp hnil).1)
  · intro c hc
    rw [String.toList_append] at hc
    rcases List.mem_append.mp hc with hc | hc
    · exact hs.2 c hc
    · exact ht c hc

theorem Solid.toList_ne_nil {s : String} (hs : Solid s) : s.toList ≠ [] :=
  fun hnil => hs.1 (String.toList_inj.mp hnil)

theorem fields_solid {s : String} (hs : Solid s) : fields s = [s] := by
  rw [fields, List.splitOnP_eq_singleton hs.2]
  simp [hs.toList_ne_nil]

theorem fields_pair {s t : String} (hs : Solid s) (ht : Solid t) : fields (s ++ " " ++ t) = [s, t] := by
  have hsplit : (s ++ " " ++ t).toList.splitOnP isSpace = [s.toList, t.toList] := by
    have hlist : (s ++ " " ++ t).toList = s.toList ++ ' ' :: t.toList := by
      simp [String.toList_append]
    rw [hlist, List.splitOnP_append_cons_of_forall_mem hs.2 ' ' (by decide),
      List.splitOnP_eq_singleton ht.2]
  rw [fields, hsplit]
  simp [hs.toList_ne_nil, ht.toList_ne_nil]

theorem split_pair {sep : Char} {s t : String} (hs : sep ∉ s.toList) (ht : sep ∉ t.toList) :
    split sep (s ++ String.singleton sep ++ t) = [s, t] := by
  have hne : ∀ {u : String}, sep ∉ u.toList → ∀ c ∈ u.toList, (c == sep) = false := by
    intro u hu c hc
    simp only [beq_eq_false_iff_ne, ne_eq]
    rintro rfl
    exact hu hc
  have hlist : (s ++ String.singleton sep ++ t).toList = s.toList ++ sep :: t.toList := by
    simp [String.toList_append]
  rw [split, List.splitOn_eq_splitOnP, hlist,
    List.splitOnP_append_cons_of_forall_mem (hne hs) sep (by simp), List.splitOnP_eq_singleton (hne ht)]
  simp

end Text
