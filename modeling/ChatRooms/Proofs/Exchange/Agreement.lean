import ChatRooms.Proofs.Exchange.Letters
import Mathlib.Data.List.Sort

namespace ChatRooms

open Std

section Counting

variable {α β : Type} {f : α → Option β} {xs : List α} {i j n : Nat} {x : α} {y : β}

theorem getElem?_filterMap_of_getElem? (hx : xs[i]? = some x) (hy : f x = some y) :
    (xs.filterMap f)[((xs.take i).filterMap f).length]? = some y := by
  induction xs generalizing i with
  | nil => simp at hx
  | cons first rest ih =>
    cases i with
    | zero =>
      obtain rfl : first = x := by simpa using hx
      simp [hy]
    | succ i =>
      rw [List.getElem?_cons_succ] at hx
      rw [List.take_succ_cons, List.filterMap_cons, List.filterMap_cons]
      cases f first with
      | none => exact ih hx
      | some found => simpa using ih hx

theorem exists_of_getElem?_filterMap (h : (xs.filterMap f)[n]? = some y) :
    ∃ i x, xs[i]? = some x ∧ f x = some y ∧ ((xs.take i).filterMap f).length = n := by
  induction xs generalizing n with
  | nil => simp at h
  | cons first rest ih =>
    rw [List.filterMap_cons] at h
    cases hfirst : f first with
    | none =>
      rw [hfirst] at h
      obtain ⟨i, x, hx, hy, hn⟩ := ih h
      exact ⟨i + 1, x, hx, hy, by simpa [hfirst] using hn⟩
    | some found =>
      rw [hfirst] at h
      cases n with
      | zero => exact ⟨0, first, rfl, hfirst.trans (by simpa using h), rfl⟩
      | succ n =>
        obtain ⟨i, x, hx, hy, hn⟩ := ih h
        exact ⟨i + 1, x, hx, hy, by simpa [hfirst] using hn⟩

theorem length_filterMap_take_lt (hx : xs[i]? = some x) (hy : f x = some y) (hij : i < j) :
    ((xs.take i).filterMap f).length < ((xs.take j).filterMap f).length := by
  have hnext : (xs.take (i + 1)).filterMap f = (xs.take i).filterMap f ++ [y] := by
    rw [List.take_add_one, hx, List.filterMap_append]
    simp [hy]
  have hsublist : (xs.take (i + 1)).Sublist (xs.take j) := List.take_sublist_take_left hij
  have hle := (hsublist.filterMap f).length_le
  rw [hnext, List.length_append, List.length_singleton] at hle
  omega

end Counting

/-- The line that was taken in at the one place was handled at the other: before it, as many lines of the
client were taken in as were handled. -/
def Passes (id : ClientId) (trace : List Happening) (written heard : Nat) : Prop :=
  ∃ hub line, HappensAt trace written (.forwarded id line) ∧
    HappensAt trace heard (.handled hub (.line id line)) ∧
    (forwardedLines id (trace.take written)).length = (handledLines id (trace.take heard)).length

section Places

variable {id : ClientId} {trace : List Happening} {line : String} {hub : Hub}
  {written heard written' heard' place : Nat}

theorem forwarded?_eq_some {happening : Happening} :
    happening.forwarded? id = some line ↔ happening = .forwarded id line := by
  cases happening with
  | forwarded other text =>
    by_cases hid : other = id
    · simp [Happening.forwarded?, hid]
    · simp [Happening.forwarded?, hid]
  | handled | taken => simp [Happening.forwarded?]

theorem handled?_line (hub : Hub) (id : ClientId) (line : String) :
    (Happening.handled hub (.line id line)).handled? id = some line :=
  if_pos rfl

/-- Lines of one client are handled in the order in which they were written. -/
theorem Passes.lt_iff (h : Passes id trace written heard) (h' : Passes id trace written' heard') :
    written < written' ↔ heard < heard' := by
  obtain ⟨hub, line, hwritten, hheard, hcount⟩ := h
  obtain ⟨hub', line', hwritten', hheard', hcount'⟩ := h'
  have hforwards {i j : Nat} {text : String} (hat : HappensAt trace i (.forwarded id text))
      (hij : i < j) :
      (forwardedLines id (trace.take i)).length < (forwardedLines id (trace.take j)).length :=
    length_filterMap_take_lt hat (forwarded?_eq_some.2 rfl) hij
  have hhandles {i j : Nat} {hub : Hub} {text : String}
      (hat : HappensAt trace i (.handled hub (.line id text))) (hij : i < j) :
      (handledLines id (trace.take i)).length < (handledLines id (trace.take j)).length :=
    length_filterMap_take_lt hat (handled?_line _ _ _) hij
  constructor
  · intro hlt
    by_contra hle
    have hless := hforwards hwritten hlt
    rcases Nat.eq_or_lt_of_le (Nat.le_of_not_lt hle) with rfl | hgreater
    · omega
    · have hmore := hhandles hheard' hgreater
      omega
  · intro hlt
    by_contra hle
    have hless := hhandles hheard hlt
    rcases Nat.eq_or_lt_of_le (Nat.le_of_not_lt hle) with rfl | hgreater
    · omega
    · have hmore := hforwards hwritten' hgreater
      omega

end Places

namespace Floor

variable {settings : Settings} {id : ClientId} {trace : List Happening} {floor : Floor}
  {letters : ClientId → List Letter}

/-- Every line that the hub handled was written, and which one it was is known. -/
theorem Bustle.exists_passes (h : Bustle settings trace floor) {hub : Hub} {line : String} {heard : Nat}
    (hheard : HappensAt trace heard (.handled hub (.line id line))) :
    ∃ written, Passes id trace written heard := by
  have hhandled := getElem?_filterMap_of_getElem? hheard (handled?_line hub id line)
  have hwritten : (forwardedLines id trace)[(handledLines id (trace.take heard)).length]? =
      some line := by
    obtain ⟨rest, hrest⟩ := h.handled_prefix id
    rw [← hrest, List.getElem?_append_left]
    · exact hhandled
    · exact (List.getElem?_eq_some_iff.1 hhandled).1
  obtain ⟨written, happening, hat, hforwarded, hcount⟩ := exists_of_getElem?_filterMap hwritten
  obtain rfl := forwarded?_eq_some.1 hforwarded
  exact ⟨written, hub, line, hat, hheard, hcount⟩

/-- What two clients have both heard in public they have heard in the same order, in which it was handled,
and neither has heard anything twice. So the messages of one sender come in the order in which they were
written. -/
theorem Recorded.agrees (h : Recorded settings trace letters floor) :
    (∀ id, (received trace letters id).map Letter.line = takenLines id trace ∧
      (publicPlaces (received trace letters id)).Pairwise (· < ·) ∧
      ∀ letter ∈ received trace letters id, ∃ hub event hub' effects,
        HappensAt trace letter.place (.handled hub event) ∧ hub.handle event = .ok (hub', effects) ∧
          .deliver id letter.notice ∈ effects ∧
          ∀ room nickname text, letter.notice = .chat room nickname text →
            ∃ sender line, event = .line sender line) ∧
    (∀ x y, (publicPlaces (received trace letters x)).filter
        (· ∈ publicPlaces (received trace letters y)) =
      (publicPlaces (received trace letters y)).filter
        (· ∈ publicPlaces (received trace letters x))) ∧
    (∀ sender hub line heard, HappensAt trace heard (.handled hub (.line sender line)) →
      ∃ written, Passes sender trace written heard) ∧
    ∀ sender written heard written' heard', Passes sender trace written heard →
      Passes sender trace written' heard' → (written < written' ↔ heard < heard') := by
  have hordered (id : ClientId) : (publicPlaces (received trace letters id)).Pairwise (· < ·) := by
    refine (h.dated id).ordered.sublist ?_
    exact ((List.take_sublist _ _).filter _).map _
  refine ⟨fun id => ⟨h.lines_received id, hordered id, fun letter hmem => ?_⟩, fun x y => ?_,
    fun sender hub line heard hheard => h.bustle.exists_passes hheard,
    fun sender written heard written' heard' hpasses hpasses' => hpasses.lt_iff hpasses'⟩
  · obtain ⟨hub, event, hub', effects, hat, hhandle, hdeliver⟩ :=
      (h.dated id).sent letter (List.mem_of_mem_take hmem)
    refine ⟨hub, event, hub', effects, hat, hhandle, hdeliver, fun room nickname text hchat => ?_⟩
    rw [hchat] at hdeliver
    have hreach := (h.bustle.sound.heard (List.mem_of_getElem? hat)).1
    exact (Hub.steps_of_handle hhandle).exists_line_of_chat hreach.intact hdeliver
  · apply ((hordered x).filter _).eq_of_mem_iff ((hordered y).filter _)
    intro place
    simp only [List.mem_filter, decide_eq_true_eq, and_comm]

set_option maxRecDepth 20000 in
/-- Both clients write, and both hear what either has written. -/
theorem agrees_with_echo : ∃ trace letters floor,
    Recorded { echoChatToSender := true } trace letters floor ∧
    takenLines 1 trace = ["* welcome guest1! you are in room 'general' (CMD:help:: lists commands)",
      "* guest2 connected", "[general] guest1: one", "[general] guest2: two"] ∧
    takenLines 2 trace = ["* welcome guest2! you are in room 'general' (CMD:help:: lists commands)",
      "[general] guest1: one", "[general] guest2: two"] ∧
    publicPlaces (received trace letters 1) = [1, 4, 5] ∧
    publicPlaces (received trace letters 2) = [4, 5] ∧
    (publicPlaces (received trace letters 1)).filter
        (· ∈ publicPlaces (received trace letters 2)) =
      (publicPlaces (received trace letters 2)).filter
        (· ∈ publicPlaces (received trace letters 1)) := by
  have step {trace happenings : List Happening} {letters : ClientId → List Letter} {floor floor' : Floor}
      (before : Recorded { echoChatToSender := true } trace letters floor)
      (hstep : Step floor happenings floor') :=
    before.step (.step hstep)
  have h₀ : Recorded { echoChatToSender := true } [] _ _ := .start rfl
  have h₁ := step h₀ (@Step.connect _ 1 8 _ rfl rfl)
  have h₂ := step h₁ (@Step.connect _ 2 8 _ rfl rfl)
  have h₃ := step h₂ (@Step.post _ (.register 1 none) _ ⟨rfl, fun _ => List.not_mem_nil⟩ rfl)
  have h₄ := step h₃ (@Step.order _ _ _ rfl rfl rfl (by simp))
  have h₅ := step h₄ (@Step.post _ (.register 2 none) _ ⟨rfl, fun _ => List.not_mem_nil⟩ rfl)
  have h₆ := step h₅ (@Step.order _ _ _ rfl rfl rfl (by simp))
  have h₇ := step h₆ (@Step.write _ 1 "CHAT:::one" _ (by decide) rfl rfl rfl)
  have h₈ := step h₇ (@Step.write _ 2 "CHAT:::two" _ (by decide) rfl rfl rfl)
  have h₉ := step h₈ (@Step.answer _ (.queue []) rfl rfl rfl rfl)
  have h₁₀ := step h₉ (@Step.gather _ _ _ _ _ rfl rfl)
  have h₁₁ := step h₁₀ (@Step.gather _ _ _ _ _ rfl rfl)
  have h₁₂ := step h₁₁ (@Step.conclude _ _ _ rfl rfl)
  have h₁₃ := step h₁₂ (@Step.handle _ _ _ rfl rfl)
  have h₁₄ := step h₁₃ (@Step.handle _ _ _ rfl rfl)
  have h₁₅ := step h₁₄ (@Step.take _ 1 _ _ _ rfl rfl)
  have h₁₆ := step h₁₅ (@Step.take _ 1 _ _ _ rfl rfl)
  have h₁₇ := step h₁₆ (@Step.take _ 1 _ _ _ rfl rfl)
  have h₁₈ := step h₁₇ (@Step.take _ 1 _ _ _ rfl rfl)
  have h₁₉ := step h₁₈ (@Step.take _ 2 _ _ _ rfl rfl)
  have h₂₀ := step h₁₉ (@Step.take _ 2 _ _ _ rfl rfl)
  have h₂₁ := step h₂₀ (@Step.take _ 2 _ _ _ rfl rfl)
  exact ⟨_, _, _, h₂₁, rfl, rfl, rfl, rfl, h₂₁.agrees.2.1 1 2⟩

end Floor

end ChatRooms
