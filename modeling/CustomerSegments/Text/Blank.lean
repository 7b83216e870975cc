namespace CustomerSegments.Text

/-- The 25 characters of Unicode's White_Space property. -/
def isBlank (c : Char) : Bool :=
  let n := c.toNat
  (9 ≤ n && n ≤ 13) || n == 0x20 || n == 0x85 || n == 0xA0 || n == 0x1680 ||
    (0x2000 ≤ n && n ≤ 0x200A) || n == 0x2028 || n == 0x2029 || n == 0x202F ||
    n == 0x205F || n == 0x3000

/-- The characters from the first one that is not blank. -/
def trimStart (cs : List Char) : List Char :=
  cs.dropWhile isBlank

/-- The characters without the blank ones at either end. -/
def trimChars (cs : List Char) : List Char :=
  (trimStart (trimStart cs).reverse).reverse

/-- A text without the blank characters at either end. -/
def trim (s : String) : String :=
  String.ofList (trimChars s.toList)

theorem trimStart_of_not_blank {c : Char} {cs : List Char} (h : isBlank c = false) :
    trimStart (c :: cs) = c :: cs := by
  simp [trimStart, h]

theorem trimStart_trimStart (cs : List Char) : trimStart (trimStart cs) = trimStart cs := by
  induction cs with
  | nil => rfl
  | cons c rest ih =>
    by_cases blank : isBlank c = true
    · rw [show trimStart (c :: rest) = trimStart rest from List.dropWhile_cons_of_pos blank, ih]
    · rw [trimStart_of_not_blank (by simpa using blank), trimStart_of_not_blank (by simpa using blank)]

/-- A front part of a text that starts with no blank character does not start with one either. -/
theorem trimStart_prefix {cs front : List Char} (front_le : front <+: cs) (trimmed : trimStart cs = cs) :
    trimStart front = front := by
  cases front with
  | nil => rfl
  | cons c rest =>
    obtain ⟨tail, rfl⟩ := front_le
    by_cases blank : isBlank c = true
    · have shorter := (List.dropWhile_suffix (l := rest ++ tail) isBlank).length_le
      have same := congrArg List.length trimmed
      rw [List.cons_append, show trimStart (c :: (rest ++ tail)) = trimStart (rest ++ tail) from
        List.dropWhile_cons_of_pos blank] at same
      simp only [trimStart, List.length_cons] at same
      omega
    · exact trimStart_of_not_blank (by simpa using blank)

theorem trimChars_trimChars (cs : List Char) : trimChars (trimChars cs) = trimChars cs := by
  have front : trimStart (trimChars cs) = trimChars cs := by
    refine trimStart_prefix ?_ (trimStart_trimStart cs)
    rw [trimChars, ← List.reverse_suffix, List.reverse_reverse]
    exact List.dropWhile_suffix isBlank
  have back : trimStart (trimChars cs).reverse = (trimChars cs).reverse := by
    rw [trimChars, List.reverse_reverse, trimStart_trimStart]
  calc trimChars (trimChars cs) = (trimStart (trimStart (trimChars cs)).reverse).reverse := rfl
    _ = trimChars cs := by rw [front, back, List.reverse_reverse]

theorem trim_trim (s : String) : trim (trim s) = trim s := by
  rw [trim, trim, String.toList_ofList, trimChars_trimChars]

end CustomerSegments.Text
