/-! # The last word of a history

What a part of a state holds is often what the last call that concerns it has left there, whatever came
before that call and whatever other calls came after it (`foldl_lastWord`). A switch is a part that calls
turn on and off (`lastWord_getD_iff`). -/
namespace ChipEight

variable {α β σ : Type} {word : α → Option β} {cs : List α} {b : β}

/-- The last word that the calls of a history have to say. -/
def lastWord (word : α → Option β) (cs : List α) : Option β := cs.reverse.findSome? word

/-- The calls after the last one that has a word to say, or all of them if none has. -/
def sinceLast (word : α → Option β) (cs : List α) : List α :=
  (cs.reverse.takeWhile fun c => (word c).isNone).reverse

theorem lastWord_append (word : α → Option β) (cs ds : List α) :
    lastWord word (cs ++ ds) = (lastWord word ds).or (lastWord word cs) := by
  simp [lastWord, List.findSome?_append]

theorem lastWord_cons (word : α → Option β) (c : α) (cs : List α) :
    lastWord word (c :: cs) = (lastWord word cs).or (word c) := by
  simp [lastWord, List.findSome?_append]

theorem lastWord_singleton (word : α → Option β) (c : α) : lastWord word [c] = word c := by
  simp [lastWord]

theorem lastWord_eq_some_iff : lastWord word cs = some b ↔
    ∃ before c later, cs = before ++ c :: later ∧ word c = some b ∧ ∀ d ∈ later, word d = none := by
  rw [lastWord, List.findSome?_eq_some_iff]
  constructor
  · rintro ⟨later, c, before, split, said, silent⟩
    refine ⟨before.reverse, c, later.reverse, ?_, said, fun d mem => silent d (List.mem_reverse.mp mem)⟩
    rw [← List.reverse_reverse cs, split]
    simp
  · rintro ⟨before, c, later, rfl, said, silent⟩
    exact ⟨later.reverse, c, before.reverse, by simp, said,
      fun d mem => silent d (List.mem_reverse.mp mem)⟩

theorem exists_last_of_mem {a : α} {as : List α} (mem : a ∈ as) :
    ∃ before later, as = before ++ a :: later ∧ a ∉ later := by
  obtain ⟨later, before, split, none⟩ := List.eq_append_cons_of_mem (List.mem_reverse.mpr mem)
  refine ⟨before.reverse, later.reverse, ?_, by rwa [List.mem_reverse]⟩
  rw [← List.reverse_reverse as, split]
  simp

theorem lastWord_eq_none_iff : lastWord word cs = none ↔ ∀ c ∈ cs, word c = none := by
  simp [lastWord]

/-- What each call sets or leaves alone is, after a history, what its last call has set. The calls have
to keep what makes them do so. -/
theorem foldl_lastWord (view : σ → β) (Inv : σ → Prop) {step : σ → α → σ}
    (keeps : ∀ s c, Inv s → Inv (step s c))
    (moves : ∀ s c, Inv s → view (step s c) = (word c).getD (view s)) {s : σ} (inv : Inv s)
    (cs : List α) : view (cs.foldl step s) = (lastWord word cs).getD (view s) := by
  induction cs generalizing s with
  | nil => rfl
  | cons c cs ih =>
    rw [List.foldl_cons, ih (keeps s c inv), moves s c inv, lastWord_cons]
    cases lastWord word cs <;> rfl

/-! ## Switches -/

section Switch

variable {word : α → Option Bool} {on off reset : α} (raises : ∀ c, word c = some true ↔ c = on)
  (lowers : ∀ c, word c = some false ↔ c = off ∨ c = reset)
include raises lowers

theorem lastWord_eq_true_iff : lastWord word cs = some true ↔
    ∃ before later, cs = before ++ on :: later ∧ off ∉ later ∧ reset ∉ later := by
  constructor
  · intro raised
    obtain ⟨before, c, later, rfl, said, others⟩ := lastWord_eq_some_iff.mp raised
    obtain rfl := (raises c).mp said
    refine ⟨before, later, rfl, fun lowered => ?_, fun lowered => ?_⟩
    · cases ((lowers off).mpr (.inl rfl)).symm.trans (others off lowered)
    · cases ((lowers reset).mpr (.inr rfl)).symm.trans (others reset lowered)
  · rintro ⟨before, later, rfl, noOff, noReset⟩
    rw [lastWord_append, lastWord_cons, (raises on).mpr rfl]
    cases last : lastWord word later with
    | none => rfl
    | some up =>
      cases up with
      | true => rfl
      | false =>
        obtain ⟨_, c, _, rfl, said, -⟩ := lastWord_eq_some_iff.mp last
        rcases (lowers c).mp said with rfl | rfl
        · exact absurd (by simp) noOff
        · exact absurd (by simp) noReset

/-- A switch is on if it was switched on and not off since, or was on and never switched off. -/
theorem lastWord_getD_iff (b : Bool) : (lastWord word cs).getD b = true ↔
    (∃ before later, cs = before ++ on :: later ∧ off ∉ later ∧ reset ∉ later) ∨
      b = true ∧ off ∉ cs ∧ reset ∉ cs := by
  rw [← lastWord_eq_true_iff raises lowers]
  cases last : lastWord word cs with
  | none =>
    have silent := lastWord_eq_none_iff.mp last
    have noOff : off ∉ cs := fun mem => by
      cases ((lowers off).mpr (.inl rfl)).symm.trans (silent off mem)
    have noReset : reset ∉ cs := fun mem => by
      cases ((lowers reset).mpr (.inr rfl)).symm.trans (silent reset mem)
    simp [noOff, noReset]
  | some up =>
    cases up with
    | true => simp
    | false =>
      obtain ⟨_, c, _, rfl, said, -⟩ := lastWord_eq_some_iff.mp last
      rcases (lowers c).mp said with rfl | rfl
      · simp
      · simp

end Switch

/-! ## Since the last word -/

theorem sinceLast_concat_of_some {c : α} (said : word c = some b) :
    sinceLast word (cs ++ [c]) = [] := by
  simp [sinceLast, said]

theorem sinceLast_concat_of_none {c : α} (silent : word c = none) :
    sinceLast word (cs ++ [c]) = sinceLast word cs ++ [c] := by
  simp [sinceLast, silent]

end ChipEight
