import ChatRooms.Framing
import ChatRooms.Proofs.Text.ByteOrder

namespace ChatRooms

/-- There is no line break in the text. -/
def IsOneLine (text : String) : Prop :=
  '\n' ∉ text.toList

instance (text : String) : Decidable (IsOneLine text) :=
  inferInstanceAs (Decidable ('\n' ∉ text.toList))

namespace IsOneLine

variable {front text back separator : String}

theorem append (hfront : IsOneLine front) (hback : IsOneLine back) : IsOneLine (front ++ back) := by
  rw [IsOneLine, String.toList_append, List.mem_append, not_or]
  exact ⟨hfront, hback⟩

theorem enclose (h : IsOneLine text) (hfront : IsOneLine front) (hback : IsOneLine back) :
    IsOneLine (front ++ text ++ back) :=
  (hfront.append h).append hback

theorem intercalate {texts : List String} (h : ∀ text ∈ texts, IsOneLine text)
    (hseparator : IsOneLine separator) : IsOneLine (separator.intercalate texts) := by
  induction texts with
  | nil => simp [IsOneLine]
  | cons text rest ih =>
    have htext := h text List.mem_cons_self
    have hrest := ih fun other hother => h other (List.mem_cons_of_mem _ hother)
    cases rest with
    | nil => rwa [String.intercalate_singleton]
    | cons next rest =>
      rw [String.intercalate_cons_cons]
      exact (htext.append hseparator).append hrest

end IsOneLine

theorem isOneLine_toString (n : Nat) : IsOneLine (toString n) := by
  rw [IsOneLine, Nat.toString_eq_ofList_toDigits, String.toList_ofList]
  intro hmem
  exact absurd (Nat.isDigit_of_mem_toDigits (by decide) (by decide) hmem) (by decide)

theorem toList_loop (bytes : ByteArray) (i : Nat) (read : List UInt8) :
    ByteArray.toList.loop bytes i read = read.reverse ++ bytes.data.toList.drop i := by
  fun_induction ByteArray.toList.loop bytes i read with
  | case1 i read h ih =>
    have hsize : i < bytes.data.toList.length := h
    have hbyte : bytes.get! i = bytes.data.toList[i] := by
      show bytes.data[i]! = _
      rw [getElem!_pos bytes.data i h, Array.getElem_toList]
    rw [ih, List.drop_eq_getElem_cons hsize, List.reverse_cons, List.append_assoc, List.singleton_append,
      hbyte]
  | case2 i read h =>
    have hsize : bytes.data.toList.length ≤ i := Nat.not_lt.1 h
    rw [List.drop_eq_nil_of_le hsize, List.append_nil]

theorem toList_toUTF8 (text : String) : text.toUTF8.toList = Text.utf8Bytes text := by
  rw [ByteArray.toList, toList_loop]
  rfl

theorem eq_newline_of_mem_encode {c : Char} (h : Framing.newline ∈ String.utf8EncodeChar c) :
    c = '\n' := by
  have hvalid : c.val.toNat < 0x110000 := by
    rcases c.valid with hc | hc
    · exact Nat.lt_trans hc (by decide)
    · exact hc.2
  have hten : '\n'.val.toNat = 10 := rfl
  rw [← Char.toNat_inj, Char.toNat, Char.toNat, hten]
  unfold String.utf8EncodeChar Framing.newline at h
  dsimp only at h
  generalize c.val.toNat = n at *
  split_ifs at h
  all_goals
    simp only [List.mem_cons, List.not_mem_nil, or_false, ← UInt8.toNat_inj, UInt8.toNat_ofNat',
      UInt8.reduceToNat] at h
    simp (disch := omega) only [Nat.mod_eq_of_lt] at h
    omega

theorem IsOneLine.count_encode {line : String} (h : IsOneLine line) :
    (Framing.encode line).count Framing.newline = 1 := by
  have hnone : Framing.newline ∉ line.toUTF8.toList := by
    rw [toList_toUTF8, ← String.ofList_toList (s := line), Text.utf8Bytes_ofList]
    intro hmem
    obtain ⟨c, hc, hbyte⟩ := List.mem_flatMap.1 hmem
    exact h (eq_newline_of_mem_encode hbyte ▸ hc)
  rw [Framing.encode, List.count_append, List.count_eq_zero.2 hnone, List.count_singleton_self]

end ChatRooms
