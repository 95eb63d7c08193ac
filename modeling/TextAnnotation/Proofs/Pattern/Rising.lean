import TextAnnotation.Proofs.Pattern.Attempt

/-!
Attempts under ever larger limits on how often a repetition may match. What an attempt gives without running
into its limit, it gives under every larger one.
-/

namespace TextAnnotation.Pattern

namespace Attempt

/-- An attempt that agrees with another one or runs into its limit. -/
def StopsShortOf (short long : Attempt α) : Prop := short = .error .endless ∨ short = long

def Rising (attempts : Nat → Attempt α) : Prop :=
  ∀ n k, n ≤ k → (attempts n).StopsShortOf (attempts k)

/-- Attempts that run into every limit. -/
def Endless (attempts : Nat → Attempt α) : Prop := ∀ n, attempts n = .error .endless

/-- What attempts give as soon as their limit is large enough. -/
def Yields (attempts : Nat → Attempt α) (result : Attempt α) : Prop :=
  result ≠ .error .endless ∧ ∃ n, attempts n = result

theorem StopsShortOf.refl (attempt : Attempt α) : attempt.StopsShortOf attempt := .inr rfl

theorem StopsShortOf.andThen {a b : Attempt α} {f g : α → Attempt β} (hab : a.StopsShortOf b)
    (hfg : ∀ x, (f x).StopsShortOf (g x)) : (a.andThen f).StopsShortOf (b.andThen g) := by
  rcases hab with rfl | rfl
  · exact .inl rfl
  rcases a with fault | _ | x
  · exact .refl _
  · exact .refl _
  · exact hfg x

theorem StopsShortOf.orElse {a b c d : Attempt α} (hab : a.StopsShortOf b) (hcd : c.StopsShortOf d) :
    (a.orElse c).StopsShortOf (b.orElse d) := by
  rcases hab with rfl | rfl
  · exact .inl rfl
  rcases a with fault | _ | x
  · exact .refl _
  · exact hcd
  · exact .refl _

section
variable {f : Nat → Attempt α} {g : Nat → α → Attempt β}

theorem Rising.const (attempt : Attempt α) : Rising fun _ => attempt := fun _ _ _ => .refl attempt

theorem Rising.andThen (hf : Rising f) (hg : ∀ a, Rising (g · a)) :
    Rising fun n => (f n).andThen (g n) :=
  fun n k hle => (hf n k hle).andThen fun a => hg a n k hle

theorem Rising.andThen_const (hf : Rising f) (next : α → Attempt β) : Rising fun n => (f n).andThen next :=
  hf.andThen fun a => .const (next a)

theorem Rising.map (hf : Rising f) (g : α → β) : Rising fun n => (f n).andThen fun a => .ok (some (g a)) :=
  hf.andThen_const fun a => .ok (some (g a))

theorem Rising.orElse {f' : Nat → Attempt α} (hf : Rising f) (hf' : Rising f') :
    Rising fun n => (f n).orElse (f' n) :=
  fun n k hle => (hf n k hle).orElse (hf' n k hle)

theorem Rising.ite {f' : Nat → Attempt α} (hf : Rising f) (hf' : Rising f') (condition : Bool) :
    Rising fun n => if condition then f n else f' n := by
  cases condition with
  | false => exact hf'
  | true => exact hf

theorem Rising.strict {F : Attempt α → Attempt β} (hf : Rising f)
    (hstrict : F (.error .endless) = .error .endless) : Rising fun n => F (f n) := by
  intro n k hle
  rcases hf n k hle with h | h
  · exact .inl ((congrArg F h).trans hstrict)
  · exact .inr (congrArg F h)

theorem Rising.endless_or_yields (f : Nat → Attempt α) : Endless f ∨ ∃ result, Yields f result := by
  rcases Classical.em (Endless f) with h | h
  · exact .inl h
  · obtain ⟨n, hn⟩ := Classical.not_forall.1 h
    exact .inr ⟨f n, hn, n, rfl⟩

theorem Rising.endless_or_eq (hf : Rising f) {result : Attempt α} (h : Yields f result) (n : Nat) :
    f n = .error .endless ∨ f n = result := by
  obtain ⟨hresult, k, rfl⟩ := h
  rcases Nat.le_total n k with hle | hle
  · exact hf n k hle
  · rcases hf k n hle with hk | hk
    · exact absurd hk hresult
    · exact .inr hk.symm

theorem Yields.of_eq {result : Option α} (n : Nat) (h : f n = .ok result) : Yields f (.ok result) :=
  ⟨nofun, n, h⟩

theorem Yields.const (result : Option α) : Yields (fun _ => .ok result) (.ok result) := .of_eq 0 rfl

theorem Rising.eventually_eq (hf : Rising f) {result : Attempt α} (h : Yields f result) :
    ∃ n, ∀ k, n ≤ k → f k = result := by
  obtain ⟨hresult, n, rfl⟩ := h
  exists n
  intro k hle
  rcases hf n k hle with hn | hn
  · exact absurd hn hresult
  · exact hn.symm

theorem Rising.endless_of_eventually (hf : Rising f) (n : Nat) (h : ∀ k, n ≤ k → f k = .error .endless) :
    Endless f := by
  intro k
  rcases hf k (max n k) (Nat.le_max_right n k) with hk | hk
  · exact hk
  · rw [hk]
    exact h _ (Nat.le_max_left n k)

/-- Whatever passes the endless fault on is endless if it is given endless attempts, or is so for what they
yield. -/
theorem endless_strict_iff {F : Nat → Attempt α → Attempt β} (hf : Rising f)
    (hstrict : ∀ n, F n (.error .endless) = .error .endless) (hF : ∀ result, Rising (F · result)) :
    (Endless fun n => F n (f n)) ↔ Endless f ∨ ∃ result, Yields f result ∧ Endless (F · result) := by
  constructor
  · intro h
    rcases Rising.endless_or_yields f with hendless | ⟨result, hyields⟩
    · exact .inl hendless
    obtain ⟨n, hn⟩ := hf.eventually_eq hyields
    have hendless : Endless (F · result) := by
      apply (hF result).endless_of_eventually n
      intro k hle
      have hk : F k (f k) = .error .endless := h k
      rwa [hn k hle] at hk
    exact .inr ⟨result, hyields, hendless⟩
  · intro h n
    rcases h with h | ⟨result, hyields, h⟩
    · exact (congrArg (F n) (h n)).trans (hstrict n)
    · rcases hf.endless_or_eq hyields n with hn | hn
      · exact (congrArg (F n) hn).trans (hstrict n)
      · exact (congrArg (F n) hn).trans (h n)

theorem endless_andThen_iff (hf : Rising f) (hg : ∀ a, Rising (g · a)) :
    (Endless fun n => (f n).andThen (g n)) ↔
      Endless f ∨ ∃ a, Yields f (.ok (some a)) ∧ Endless (g · a) := by
  have hstrict := @endless_strict_iff _ _ _ (fun n result => result.andThen (g n)) hf (fun _ => rfl)
    fun result => (Rising.const result).andThen hg
  rw [hstrict]
  apply or_congr_right
  constructor
  · intro h
    obtain ⟨fault | _ | a, hyields, h⟩ := h
    · cases h 0
      exact absurd rfl hyields.1
    · cases h 0
    · exact ⟨a, hyields, h⟩
  · intro h
    obtain ⟨a, hyields, h⟩ := h
    exact ⟨_, hyields, h⟩

theorem endless_orElse_iff {f' : Nat → Attempt α} (hf : Rising f) (hf' : Rising f') :
    (Endless fun n => (f n).orElse (f' n)) ↔ Endless f ∨ (Yields f (.ok none) ∧ Endless f') := by
  have hstrict := @endless_strict_iff _ _ _ (fun n result => result.orElse (f' n)) hf (fun _ => rfl)
    fun result => (Rising.const result).orElse hf'
  rw [hstrict]
  apply or_congr_right
  constructor
  · intro h
    obtain ⟨fault | _ | a, hyields, h⟩ := h
    · cases h 0
      exact absurd rfl hyields.1
    · exact ⟨hyields, h⟩
    · cases h 0
  · intro h
    exact ⟨_, h.1, h.2⟩

theorem Yields.andThen {a : α} (h : Yields f (.ok (some a))) (hf : Rising f) (hg : ∀ a, Rising (g · a))
    {result : Attempt β} (h' : Yields (g · a) result) :
    Yields (fun n => (f n).andThen (g n)) result := by
  obtain ⟨n, hn⟩ := hf.eventually_eq h
  obtain ⟨k, hk⟩ := (hg a).eventually_eq h'
  refine ⟨h'.1, max n k, ?_⟩
  simp only [hn _ (Nat.le_max_left n k), andThen_some, hk _ (Nat.le_max_right n k)]

theorem Yields.map {a : α} (h : Yields f (.ok (some a))) (hf : Rising f) (g : α → β) :
    Yields (fun n => (f n).andThen fun a => .ok (some (g a))) (.ok (some (g a))) :=
  h.andThen hf (fun a => .const (.ok (some (g a)))) (.const (some (g a)))

theorem Yields.orElse {f' : Nat → Attempt α} (h : Yields f (.ok none)) (hf : Rising f) (hf' : Rising f')
    {result : Attempt α} (h' : Yields f' result) : Yields (fun n => (f n).orElse (f' n)) result := by
  obtain ⟨n, hn⟩ := hf.eventually_eq h
  obtain ⟨k, hk⟩ := hf'.eventually_eq h'
  refine ⟨h'.1, max n k, ?_⟩
  simp only [hn _ (Nat.le_max_left n k), orElse_none, hk _ (Nat.le_max_right n k)]

theorem Yields.of_andThen {b : β} (h : Yields (fun n => (f n).andThen (g n)) (.ok (some b))) :
    ∃ a, Yields f (.ok (some a)) ∧ Yields (g · a) (.ok (some b)) := by
  obtain ⟨_, n, hn⟩ := h
  obtain ⟨a, ha, hb⟩ := andThen_eq_some_iff.1 hn
  exact ⟨a, .of_eq n ha, .of_eq n hb⟩

theorem Yields.of_orElse {f' : Nat → Attempt α} (h : Yields (fun n => (f n).orElse (f' n)) (.ok none)) :
    Yields f (.ok none) ∧ Yields f' (.ok none) := by
  obtain ⟨_, n, hn⟩ := h
  obtain ⟨hf, hf'⟩ := orElse_eq_none_iff.1 hn
  exact ⟨.of_eq n hf, .of_eq n hf'⟩

theorem yields_map_none_iff (g : α → β) :
    Yields (fun n => (f n).andThen fun a => .ok (some (g a))) (.ok none) ↔ Yields f (.ok none) :=
  and_congr ⟨fun _ => nofun, fun _ => nofun⟩ (exists_congr fun _ => map_eq_none_iff)

theorem endless_andThen_const_iff (hf : Rising f) {next : α → Attempt β}
    (hnext : ∀ a, next a ≠ .error .endless) : (Endless fun n => (f n).andThen next) ↔ Endless f := by
  apply Iff.trans (endless_andThen_iff hf fun a => .const (next a))
  apply or_iff_left
  intro h
  obtain ⟨a, _, h⟩ := h
  exact hnext a (h 0)

theorem endless_map_iff (hf : Rising f) (g : α → β) :
    (Endless fun n => (f n).andThen fun a => .ok (some (g a))) ↔ Endless f :=
  endless_andThen_const_iff hf nofun

end

end Attempt

end TextAnnotation.Pattern
