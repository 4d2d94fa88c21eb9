import ContractScan.Position
import ContractScan.Proofs.LineCut
import ContractScan.Text.Quoted

/-
  Texts of rows. A row lies on one line, and ends in a line feed. Texts made of rows are cut into
  lines where their rows end, and nowhere else (`cutIntoLines_rows`). What stands in the rows of
  reports lies on one line: numbers, places (`oneLine_position`), and quoted text, whatever is
  quoted (`oneLine_encode`).
-/

namespace ContractScan

open ContractScan.Text (isLineBreak)

/-- Whether a text lies on one line. -/
def OneLine (s : String) : Prop := ∀ c ∈ s.toList, isLineBreak c = false

instance : DecidablePred OneLine := fun s =>
  decidable_of_iff (s.toList.all fun c => !isLineBreak c) (by simp [OneLine])

@[simp] theorem oneLine_append {a b : String} : OneLine (a ++ b) ↔ OneLine a ∧ OneLine b := by
  simp only [OneLine, String.toList_append, List.forall_mem_append]

@[simp] theorem oneLine_ofList {cs : List Char} :
    OneLine (String.ofList cs) ↔ ∀ c ∈ cs, isLineBreak c = false := by
  rw [OneLine, String.toList_ofList]

/-! ## Numbers and places -/

theorem isLineBreak_eq_false_of_isDigit {c : Char} (h : c.isDigit) : isLineBreak c = false := by
  rw [← Bool.not_eq_true, Text.isLineBreak_iff]
  rintro (rfl | rfl) <;> cases h

@[simp] theorem oneLine_toString (n : Nat) : OneLine (toString n) := by
  rw [Nat.toString_eq_repr, Nat.repr_eq_ofList_toDigits, oneLine_ofList]
  exact fun c hc =>
    isLineBreak_eq_false_of_isDigit (Nat.isDigit_of_mem_toDigits (by decide) (by decide) hc)

theorem oneLine_position (p : Position) : OneLine p.toText := by
  simp only [Position.toText, oneLine_append, oneLine_toString]
  decide

/-! ## Quoted text -/

namespace Text.Quoted

theorem isLineBreak_hexDigit {n : Nat} (h : n < 16) : isLineBreak (hexDigit n) = false := by
  have hall : ∀ n < 16, isLineBreak (hexDigit n) = false := by decide
  exact hall n h

theorem isLineBreak_hex {n : Nat} {c : Char} (h : c ∈ hex n) : isLineBreak c = false := by
  fun_induction hex n with
  | case1 n hn =>
    rw [List.mem_singleton.mp h]
    exact isLineBreak_hexDigit hn
  | case2 n _ ih =>
    rcases List.mem_append.mp h with h | h
    · exact ih h
    · rw [List.mem_singleton.mp h]
      exact isLineBreak_hexDigit (Nat.mod_lt n (by decide))

theorem isLineBreak_escape {x c : Char} (h : c ∈ escape x) : isLineBreak c = false := by
  have of_mem {cs : List Char} (hcs : cs.all fun c => !isLineBreak c) (hc : c ∈ cs) :
      isLineBreak c = false := by
    simpa using List.all_eq_true.mp hcs c hc
  unfold escape at h
  split at h
  · exact of_mem (by decide) h
  split at h
  · exact of_mem (by decide) h
  split at h
  · exact of_mem (by decide) h
  split at h
  · exact of_mem (by decide) h
  split at h
  · exact of_mem (by decide) h
  split at h
  · exact of_mem (by decide) h
  next hlf hcr =>
  split at h
  · rcases List.mem_append.mp h with h | h
    · rw [List.mem_cons, List.mem_cons, List.mem_cons] at h
      rcases h with rfl | rfl | rfl | h
      · rfl
      · rfl
      · rfl
      · exact isLineBreak_hex h
    · exact of_mem (by decide) h
  · rw [List.mem_singleton.mp h, ← Bool.not_eq_true, Text.isLineBreak_iff, not_or]
    exact ⟨hlf, hcr⟩

end Text.Quoted

/-- Quoted text lies on one line, also where the text does not. -/
theorem oneLine_encode (s : String) : OneLine (Text.Quoted.encode s) := by
  rw [Text.Quoted.encode, oneLine_ofList]
  intro c hc
  rcases List.mem_cons.mp hc with rfl | hc
  · rfl
  rcases List.mem_append.mp hc with hc | hc
  · obtain ⟨x, -, hc⟩ := List.mem_flatMap.mp hc
    exact Text.Quoted.isLineBreak_escape hc
  · rw [List.mem_singleton.mp hc]
    rfl

/-! ## Rows -/

/-- The text of rows, each with its line feed. -/
def ofRows (rows : List String) : String := String.join (rows.map (· ++ "\n"))

theorem cutIntoLines_rows {rows : List String} (h : ∀ r ∈ rows, OneLine r) :
    CutIntoLines (ofRows rows).toList ((rows.map fun r => (r ++ "\n").toList) ++ [[]]) := by
  rw [ofRows, String.toList_join, List.flatMap_map]
  induction rows with
  | nil => exact .last (by simp)
  | cons r rows ih =>
    rw [List.forall_mem_cons] at h
    have hline := CutIntoLines.line h.1 (.lf _) (ih h.2)
    rw [← List.append_assoc] at hline
    simpa using hline

end ContractScan
