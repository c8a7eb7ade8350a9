import ChatRooms.Text
import Mathlib.Data.List.DropRight
import Mathlib.Data.List.TakeWhile

namespace ChatRooms.Text

variable {separator : Char} {text front field core line : List Char}

theorem cut_of_not_mem (h : separator ∉ text) : cut separator text = (text, none) := by
  induction text with
  | nil => rfl
  | cons c rest ih =>
    rw [List.mem_cons, not_or] at h
    rw [cut, if_neg (Ne.symm h.1), ih h.2]

theorem cut_cases (separator : Char) (text : List Char) :
    (separator ∉ text ∧ cut separator text = (text, none)) ∨
    ∃ front back, separator ∉ front ∧ text = front ++ separator :: back ∧
      cut separator text = (front, some back) := by
  by_cases h : separator ∈ text
  · obtain ⟨front, back, htext, hfront⟩ := List.eq_append_cons_of_mem h
    refine Or.inr ⟨front, back, hfront, htext, ?_⟩
    rw [htext, cut_append hfront]
  · exact Or.inl ⟨h, cut_of_not_mem h⟩

/-- There is nothing else. -/
def Blank (text : List Char) : Prop :=
  ∀ c ∈ text, isBlank c = true

/-- There is a blank at neither end. -/
structure Trimmed (text : List Char) : Prop where
  head : ∀ c ∈ text.head?, isBlank c = false
  last : ∀ c ∈ text.getLast?, isBlank c = false

/-- The field is the core with blanks around it. -/
def Carries (field core : List Char) : Prop :=
  Trimmed core ∧ ∃ before after, Blank before ∧ Blank after ∧ field = before ++ core ++ after

theorem dropWhile_of_head (h : ∀ c ∈ text.head?, isBlank c = false) :
    text.dropWhile isBlank = text := by
  cases text with
  | nil => rfl
  | cons c rest => rw [List.dropWhile_cons_of_neg (by simp [h c rfl])]

theorem trimEnd_of_last (h : ∀ c ∈ text.getLast?, isBlank c = false) : trimEnd text = text := by
  rw [trimEnd, dropWhile_of_head, List.reverse_reverse]
  intro c hc
  rw [List.head?_reverse] at hc
  exact h c hc

theorem dropWhile_append_of_blank (h : Blank front) :
    (front ++ text).dropWhile isBlank = text.dropWhile isBlank :=
  List.dropWhile_append_of_pos h

theorem trimEnd_append_of_blank (h : Blank front) : trimEnd (text ++ front) = trimEnd text := by
  rw [trimEnd, trimEnd, List.reverse_append, dropWhile_append_of_blank]
  intro c hc
  exact h c (List.mem_reverse.1 hc)

theorem trimmed_trim (field : List Char) : Trimmed (trim field) := by
  have hhead (text : List Char) : ∀ c ∈ (text.dropWhile isBlank).head?, isBlank c = false := by
    intro c hc
    have hnot := List.head?_dropWhile_not isBlank text
    rw [Option.mem_def.1 hc] at hnot
    exact hnot
  constructor
  · intro c hc
    apply hhead field c
    have hprefix : trim field <+: field.dropWhile isBlank := List.rdropWhile_prefix isBlank _
    obtain ⟨rest, hrest⟩ := hprefix
    rw [← hrest, List.head?_append, Option.mem_def.1 hc]
    rfl
  · intro c hc
    rw [trim, trimEnd, List.getLast?_reverse] at hc
    exact hhead _ c hc

theorem exists_trim (field : List Char) :
    ∃ before after, Blank before ∧ Blank after ∧ field = before ++ trim field ++ after := by
  let rest := field.dropWhile isBlank
  have hrest : rest = trim field ++ (rest.reverse.takeWhile isBlank).reverse := by
    show rest = (rest.reverse.dropWhile isBlank).reverse ++ _
    rw [← List.reverse_append, List.takeWhile_append_dropWhile, List.reverse_reverse]
  refine ⟨field.takeWhile isBlank, (rest.reverse.takeWhile isBlank).reverse, ?_, ?_, ?_⟩
  · intro c hc
    exact List.mem_takeWhile_imp hc
  · intro c hc
    exact List.mem_takeWhile_imp (List.mem_reverse.1 hc)
  · rw [List.append_assoc, ← hrest, List.takeWhile_append_dropWhile]

theorem trim_eq_iff : trim field = core ↔ Carries field core := by
  constructor
  · rintro rfl
    exact ⟨trimmed_trim field, exists_trim field⟩
  · rintro ⟨htrimmed, before, after, hbefore, hafter, rfl⟩
    rw [trim, List.append_assoc, dropWhile_append_of_blank hbefore]
    cases core with
    | nil =>
      have hnothing : (after ++ []).dropWhile isBlank = [] := dropWhile_append_of_blank hafter
      rw [List.append_nil] at hnothing
      rw [List.nil_append, hnothing]
      rfl
    | cons c rest =>
      have hfirst : ∀ d ∈ (c :: rest ++ after).head?, isBlank d = false := htrimmed.head
      rw [dropWhile_of_head hfirst, trimEnd_append_of_blank hafter, trimEnd_of_last htrimmed.last]

theorem dropReturn_append : dropReturn (text ++ ['\r']) = text := by
  induction text with
  | nil => rfl
  | cons c rest ih =>
    rw [List.cons_append, dropReturn, ih]
    simp

theorem dropReturn_of_last (h : '\r' ∉ text.getLast?) : dropReturn text = text := by
  induction text with
  | nil => rfl
  | cons c rest ih =>
    cases rest with
    | nil =>
      have hc : c ≠ '\r' := by
        rintro rfl
        exact h rfl
      simp [dropReturn, hc]
    | cons d rest =>
      rw [List.getLast?_cons_cons] at h
      rw [dropReturn, ih h]
      simp

/-- A line is a text with its ending. Only a text that does not itself end in a carriage return can do
without one. -/
theorem dropReturn_eq_iff : dropReturn line = text ↔
    line = text ++ ['\r'] ∨ line = text ∧ '\r' ∉ text.getLast? := by
  constructor
  · rintro rfl
    by_cases h : '\r' ∈ line.getLast?
    · obtain ⟨text, rfl⟩ := List.getLast?_eq_some_iff.1 h
      rw [dropReturn_append]
      exact Or.inl rfl
    · rw [dropReturn_of_last h]
      exact Or.inr ⟨rfl, h⟩
  · rintro (rfl | ⟨rfl, h⟩)
    · exact dropReturn_append
    · exact dropReturn_of_last h

end ChatRooms.Text
