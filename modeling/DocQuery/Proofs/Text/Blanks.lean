import DocQuery.Text.Basic

/-!
# Blanks and letter case

Names are compared without the blanks around them and without regard to ASCII case.  The
two do not interfere: a letter in another case is no more blank than before.

* `isBlank_toLower` — lower case makes nothing blank
* `dropBlanks_append_of_all`, `dropBlanks_append_cons` — where the blanks of a text end
* `dropBlanks_eq_trimChars_append` — what is dropped at the end of a text is blank
* `trimChars_padded` — a text between blanks is what is left
* `lowerAscii_trim_eq_of_sameWord` — words that differ in case still do so without blanks
* `toUpper_eq_iff` — characters that differ in case only
* `sameWord_of_toUpper` — words with the same text in upper case differ in case only
-/

namespace DocQuery.Text

/-! ### Leading blanks -/

/-- Blanks in front of a text are dropped. -/
theorem dropBlanks_append_of_all {blanks : List Char} (h : ∀ c ∈ blanks, isBlank c = true)
    (cs : List Char) : dropBlanks (blanks ++ cs) = dropBlanks cs := by
  induction blanks with
  | nil => rfl
  | cons c rest ih =>
    rw [dropBlanks, List.cons_append, List.dropWhile_cons, h c List.mem_cons_self]
    exact ih fun other hother => h other (List.mem_cons_of_mem c hother)

/-- Nothing is dropped in front of a character that is not blank. -/
theorem dropBlanks_cons {c : Char} (h : isBlank c = false) (cs : List Char) :
    dropBlanks (c :: cs) = c :: cs := by
  rw [dropBlanks, List.dropWhile_cons, h]
  rfl

theorem dropBlanks_space (cs : List Char) : dropBlanks (' ' :: cs) = dropBlanks cs :=
  dropBlanks_append_of_all (List.forall_mem_singleton.mpr (by decide : isBlank ' ' = true)) cs

@[simp] theorem dropBlanks_dropBlanks (cs : List Char) :
    dropBlanks (dropBlanks cs) = dropBlanks cs := by
  induction cs with
  | nil => rfl
  | cons c rest ih =>
    cases hc : isBlank c with
    | true => simpa [dropBlanks, hc] using ih
    | false => rw [dropBlanks_cons hc, dropBlanks_cons hc]

theorem length_dropBlanks_le (cs : List Char) : (dropBlanks cs).length ≤ cs.length :=
  (List.dropWhile_sublist _).length_le

/-- A character that is not blank ends the blanks of everything before it. -/
theorem dropBlanks_append_cons {c : Char} (h : isBlank c = false) (before after : List Char) :
    dropBlanks (before ++ c :: after) = dropBlanks before ++ c :: after := by
  induction before with
  | nil => exact dropBlanks_cons h after
  | cons a rest ih =>
    cases ha : isBlank a with
    | true => simpa [dropBlanks, List.dropWhile_cons, ha] using ih
    | false => rw [List.cons_append, dropBlanks_cons ha, dropBlanks_cons ha, List.cons_append]

/-- A character that is not blank is not dropped. -/
theorem mem_dropBlanks {c : Char} {cs : List Char} (h : isBlank c = false) (hc : c ∈ cs) :
    c ∈ dropBlanks cs := by
  obtain ⟨before, after, rfl⟩ := List.append_of_mem hc
  rw [dropBlanks_append_cons h]
  simp

/-! ### Blanks at both ends -/

theorem mem_trimChars {c : Char} {cs : List Char} (h : isBlank c = false) (hc : c ∈ cs) :
    c ∈ trimChars cs :=
  List.mem_reverse.mpr (mem_dropBlanks h (List.mem_reverse.mpr (mem_dropBlanks h hc)))

/-- What is dropped at the end of a text is blank. -/
theorem dropBlanks_eq_trimChars_append (cs : List Char) :
    ∃ blanks, (∀ c ∈ blanks, isBlank c = true) ∧ dropBlanks cs = trimChars cs ++ blanks := by
  refine ⟨((dropBlanks cs).reverse.takeWhile isBlank).reverse, ?_, ?_⟩
  · intro c hc
    exact List.all_eq_true.mp List.all_takeWhile c (List.mem_reverse.mp hc)
  · rw [trimChars, ← List.reverse_append]
    simp only [dropBlanks, List.takeWhile_append_dropWhile, List.reverse_reverse]

/-- Of a text that ends with a character that is not blank, only the leading blanks are
dropped. -/
theorem trimChars_append_singleton {c : Char} (h : isBlank c = false) (cs : List Char) :
    trimChars (cs ++ [c]) = dropBlanks (cs ++ [c]) := by
  have hend : dropBlanks (cs ++ [c]) = dropBlanks cs ++ [c] := dropBlanks_append_cons h cs []
  rw [trimChars, hend, List.reverse_append, List.reverse_singleton, List.singleton_append,
    dropBlanks_cons h, List.reverse_cons, List.reverse_reverse]

/-- Between blanks, a text without blanks is what is left. -/
theorem trimChars_padded {before cs after : List Char}
    (hbefore : ∀ c ∈ before, isBlank c = true) (hafter : ∀ c ∈ after, isBlank c = true)
    (hne : cs ≠ []) (hcs : ∀ c ∈ cs, isBlank c = false) :
    trimChars (before ++ (cs ++ after)) = cs := by
  have hfirst : dropBlanks (cs ++ after) = cs ++ after := by
    obtain ⟨c, more, rfl⟩ := List.exists_cons_of_ne_nil hne
    exact dropBlanks_cons (hcs c List.mem_cons_self) (more ++ after)
  have hlast : dropBlanks cs.reverse = cs.reverse := by
    obtain ⟨c, more, hreverse⟩ := List.exists_cons_of_ne_nil (List.reverse_ne_nil_iff.mpr hne)
    have hc : c ∈ cs := List.mem_reverse.mp (hreverse ▸ List.mem_cons_self)
    rw [hreverse, dropBlanks_cons (hcs c hc)]
  rw [trimChars, dropBlanks_append_of_all hbefore, hfirst, List.reverse_append,
    dropBlanks_append_of_all fun c hc =>
      hafter c (List.mem_reverse.mp hc), hlast, List.reverse_reverse]

/-! ### Lower case -/

/-- A character in lower case is the character itself or the letter 32 places after it. -/
theorem toLower_cases {P : Char → Char → Prop} (same : ∀ c, P c c)
    (upper : ∀ n : Fin 26, P (Char.ofNat (65 + n)) (Char.ofNat (97 + n))) (c : Char) :
    P c c.toLower := by
  by_cases h : c.val ≥ 'A'.val ∧ c.val ≤ 'Z'.val
  · have hlow : 65 ≤ c.toNat := h.1
    have hhigh : c.toNat ≤ 90 := h.2
    have hc : c = Char.ofNat (65 + (c.toNat - 65)) := by
      rw [Nat.add_sub_cancel' hlow, Char.ofNat_toNat]
    have hlower : ∀ n : Fin 26, (Char.ofNat (65 + n)).toLower =
        Char.ofNat (97 + n) := by decide
    have hletter := upper ⟨c.toNat - 65, by omega⟩
    rw [← hlower] at hletter
    rw [hc]
    exact hletter
  · have hsame : c.toLower = c := dif_neg h
    rw [hsame]
    exact same c

/-- Lower case makes nothing blank, and nothing blank changes. -/
theorem isBlank_toLower (c : Char) : isBlank c.toLower = isBlank c :=
  toLower_cases (P := fun c lower => isBlank lower = isBlank c) (fun _ => rfl) (by decide) c

theorem dropBlanks_map_toLower (cs : List Char) :
    dropBlanks (cs.map Char.toLower) = (dropBlanks cs).map Char.toLower := by
  have hsame : isBlank ∘ Char.toLower = isBlank := funext isBlank_toLower
  rw [dropBlanks, List.dropWhile_map, hsame, dropBlanks]

theorem trimChars_map_toLower (cs : List Char) :
    trimChars (cs.map Char.toLower) = (trimChars cs).map Char.toLower := by
  rw [trimChars, dropBlanks_map_toLower, ← List.map_reverse, dropBlanks_map_toLower,
    ← List.map_reverse, trimChars]

/-- Words that differ in case only still do so without the blanks around them. -/
theorem lowerAscii_trim_eq_of_sameWord {s t : String} (h : sameWord s t = true) :
    lowerAscii (trim s) = lowerAscii (trim t) := by
  rw [sameWord, beq_iff_eq] at h
  simp only [lowerAscii, trim, String.toList_ofList, ← trimChars_map_toLower, h]

/-! ### Upper case -/

/-- A character in upper case is the character itself or the letter 32 places before it. -/
theorem toUpper_cases {P : Char → Char → Prop} (same : ∀ c, P c c)
    (lower : ∀ n : Fin 26, P (Char.ofNat (97 + n)) (Char.ofNat (65 + n))) (c : Char) :
    P c c.toUpper := by
  by_cases h : c.val ≥ 'a'.val ∧ c.val ≤ 'z'.val
  · have hlow : 97 ≤ c.toNat := h.1
    have hhigh : c.toNat ≤ 122 := h.2
    have hc : c = Char.ofNat (97 + (c.toNat - 97)) := by
      rw [Nat.add_sub_cancel' hlow, Char.ofNat_toNat]
    have hupper : ∀ n : Fin 26, (Char.ofNat (97 + n)).toUpper =
        Char.ofNat (65 + n) := by decide
    have hletter := lower ⟨c.toNat - 97, by omega⟩
    rw [← hupper] at hletter
    rw [hc]
    exact hletter
  · have hsame : c.toUpper = c := dif_neg h
    rw [hsame]
    exact same c

theorem toLower_toUpper : ∀ c : Char, c.toUpper.toLower = c.toLower :=
  toUpper_cases (P := fun c upper => upper.toLower = c.toLower) (fun _ => rfl) (by decide)

theorem toUpper_toLower : ∀ c : Char, c.toLower.toUpper = c.toUpper :=
  toLower_cases (P := fun c lower => lower.toUpper = c.toUpper) (fun _ => rfl) (by decide)

/-- Two characters have one upper-case form exactly if they have one lower-case form. -/
theorem toUpper_eq_iff (a b : Char) : a.toUpper = b.toUpper ↔ a.toLower = b.toLower := by
  constructor
  · intro h
    rw [← toLower_toUpper a, h, toLower_toUpper]
  · intro h
    rw [← toUpper_toLower a, h, toUpper_toLower]

/-- Words with the same text in upper case differ in case only. -/
theorem sameWord_of_toUpper {s t : String}
    (h : s.toList.map Char.toUpper = t.toList.map Char.toUpper) : sameWord s t = true := by
  have hlower : ∀ cs : List Char,
      cs.map Char.toLower = (cs.map Char.toUpper).map Char.toLower := by
    intro cs
    rw [List.map_map]
    exact List.map_congr_left fun c _ => (toLower_toUpper c).symm
  rw [sameWord, beq_iff_eq, hlower, h, ← hlower]

/-! ### Cutting -/

theorem dropStart?_append (start cs : List Char) :
    dropStart? start (start ++ cs) = some cs := by
  induction start with
  | nil => simp
  | cons c rest ih => simpa [dropStart?] using ih

/-- A text is cut at the first occurrence of a character. -/
theorem splitAt?_append {c : Char} {before : List Char} (h : c ∉ before) (after : List Char) :
    splitAt? c (before ++ c :: after) = some (before, after) := by
  induction before with
  | nil => simp [splitAt?]
  | cons a rest ih =>
    have hne : a ≠ c := fun e => h (e ▸ List.mem_cons_self)
    rw [List.cons_append, splitAt?, ih fun hc => h (List.mem_cons_of_mem a hc)]
    simp [hne]

end DocQuery.Text
