import Mathlib.Order.Basic
import MicrokernelIpc.Object.Semaphore

/-!
# Semaphores count exactly

The slots of a semaphore are counted in words; what its calls promise is said of whole numbers. A
release holds its sum at the largest word before it compares it with the maximum, so that a sum past
the largest word is refused only if the maximum is smaller than that word (`Discerns`). Where every
sum is told, the slots that are free are those at the beginning and those that were released,
without those that were acquired. A semaphore whose maximum is the largest word takes a sum that
passes it for the maximum, and the slots beyond are lost.
-/

namespace MicrokernelIpc.Semaphore

/-- Whether a sum passes the maximum can be told: the sum is a word, or the word that it is held at
is above the maximum. -/
def Discerns (s : Semaphore) (count : UInt32) : Prop :=
  s.available.toNat + count.toNat < UInt32.size ∨ s.maxCount.toNat < UInt32.size - 1

/-- Releasing slots does what it does to a whole number below a maximum. -/
structure ReleasesExactly (s : Semaphore) (count : UInt32) : Prop where
  room : s.available.toNat + count.toNat ≤ s.maxCount.toNat →
    ∃ sum : UInt32, sum.toNat = s.available.toNat + count.toNat ∧
      s.release count = .ok (s.available, { s with available := sum })
  excess : s.maxCount.toNat < s.available.toNat + count.toNat →
    ∃ held, s.release count = .error (.exceedsMaximum held s.maxCount)

/-- Acquiring a slot does what it does to a whole number that is not zero. -/
structure AcquiresExactly (s : Semaphore) : Prop where
  free : 0 < s.available.toNat →
    ∃ rest : UInt32, rest.toNat + 1 = s.available.toNat ∧
      s.acquire = (true, { s with available := rest })
  taken : s.available.toNat = 0 → s.acquire = (false, s)

/-- Calls one after the other, each release of an admitted count, with the number of slots that were
released and that of those acquired. -/
inductive Course (admitted : Semaphore → UInt32 → Prop) (start : Semaphore) :
    Nat → Nat → Semaphore → Prop
  | refl : Course admitted start 0 0 start
  | release {released acquired : Nat} {s next : Semaphore} {count previous : UInt32}
      (course : Course admitted start released acquired s) (allowed : admitted s count)
      (call : s.release count = .ok (previous, next)) :
      Course admitted start (released + count.toNat) acquired next
  | refuse {released acquired : Nat} {s : Semaphore} {count : UInt32} {error : SemaphoreError}
      (course : Course admitted start released acquired s)
      (call : s.release count = .error error) : Course admitted start released acquired s
  | acquire {released acquired : Nat} {s next : Semaphore}
      (course : Course admitted start released acquired s) (call : s.acquire = (true, next)) :
      Course admitted start released (acquired + 1) next
  | miss {released acquired : Nat} {s next : Semaphore}
      (course : Course admitted start released acquired s) (call : s.acquire = (false, next)) :
      Course admitted start released acquired next

variable {name : String} {initial maxCount : UInt32} {start s next : Semaphore}
variable {count previous : UInt32} {released acquired : Nat}
variable {admitted : Semaphore → UInt32 → Prop}

theorem make_eq_error_iff {error : SemaphoreError} :
    make name initial maxCount = .error error ↔
      maxCount < initial ∧ error = .exceedsMaximum initial maxCount := by
  unfold make
  split
  · next above => simp [above, eq_comm]
  · next within => simp [within]

theorem of_make (made : make name initial maxCount = .ok start) :
    initial ≤ maxCount ∧ start = ⟨name, initial, maxCount⟩ := by
  unfold make at made
  split at made
  · cases made
  · next within => exact ⟨UInt32.not_lt.1 within, (Except.ok.inj made).symm⟩

/-! ## One call -/

/-- A release goes by the sum as it is held. -/
theorem release_eq (s : Semaphore) (count : UInt32) :
    s.release count =
      if (saturatingAdd s.available count).toNat ≤ s.maxCount.toNat then
        .ok (s.available, { s with available := saturatingAdd s.available count })
      else .error (.exceedsMaximum (saturatingAdd s.available count) s.maxCount) := by
  simp only [release, UInt32.lt_iff_toNat_lt, ← Nat.not_le, ite_not]

/-- Where the sum can be told from the maximum, holding it makes no difference. -/
theorem Discerns.le_iff (discerns : s.Discerns count) :
    (saturatingAdd s.available count).toNat ≤ s.maxCount.toNat ↔
      s.available.toNat + count.toNat ≤ s.maxCount.toNat := by
  have bound := s.maxCount.toNat_lt_size
  rw [toNat_saturatingAdd]
  unfold Discerns at discerns
  omega

/-- A sum within the maximum is held as it is. -/
theorem toNat_saturatingAdd_of_le
    (fits : s.available.toNat + count.toNat ≤ s.maxCount.toNat) :
    (saturatingAdd s.available count).toNat = s.available.toNat + count.toNat := by
  have bound := s.maxCount.toNat_lt_size
  rw [toNat_saturatingAdd]
  omega

theorem Discerns.releasesExactly (discerns : s.Discerns count) : s.ReleasesExactly count where
  room fits := by
    refine ⟨saturatingAdd s.available count, toNat_saturatingAdd_of_le fits, ?_⟩
    rw [release_eq, if_pos (discerns.le_iff.2 fits)]
  excess above := by
    refine ⟨saturatingAdd s.available count, ?_⟩
    rw [release_eq, if_neg (mt discerns.le_iff.1 (Nat.not_le.2 above))]

/-- A sum that cannot be told is taken for the maximum. -/
theorem release_of_untold (untold : ¬ s.Discerns count) :
    s.release count = .ok (s.available, { s with available := s.maxCount }) := by
  have bound := s.maxCount.toNat_lt_size
  simp only [Discerns, not_or, Nat.not_lt] at untold
  have held : saturatingAdd s.available count = s.maxCount := by
    apply UInt32.toNat_inj.1
    rw [toNat_saturatingAdd]
    omega
  rw [release_eq, held, if_pos (Nat.le_refl _)]

/-- A release keeps to whole numbers for the counts whose sum can be told, and for no other. -/
theorem releasesExactly_iff : s.ReleasesExactly count ↔ s.Discerns count := by
  refine ⟨fun exact => ?_, Discerns.releasesExactly⟩
  by_contra untold
  have accepted := release_of_untold untold
  have bound := s.maxCount.toNat_lt_size
  simp only [Discerns, not_or, Nat.not_lt] at untold
  obtain ⟨held, refused⟩ := exact.excess (by omega)
  cases accepted.symm.trans refused

theorem toNat_sub_one (free : 0 < s.available.toNat) :
    (s.available - 1).toNat + 1 = s.available.toNat := by
  have one : (1 : UInt32) ≤ s.available := UInt32.le_iff_toNat_le.2 free
  rw [UInt32.toNat_sub_of_le _ _ one]
  exact Nat.sub_add_cancel free

theorem acquiresExactly (s : Semaphore) : s.AcquiresExactly where
  free some := by
    refine ⟨s.available - 1, toNat_sub_one some, if_neg fun none => ?_⟩
    simp [none] at some
  taken none := if_pos (UInt32.toNat_inj.1 none)

/-! ## Calls one after the other -/

theorem of_release (call : s.release count = .ok (previous, next)) :
    (saturatingAdd s.available count).toNat ≤ s.maxCount.toNat ∧
      next = { s with available := saturatingAdd s.available count } := by
  rw [release_eq] at call
  split at call
  · next held => exact ⟨held, (Prod.mk.inj (Except.ok.inj call)).2.symm⟩
  · cases call

theorem of_acquire (call : s.acquire = (true, next)) :
    0 < s.available.toNat ∧ next = { s with available := s.available - 1 } := by
  unfold Semaphore.acquire at call
  split at call
  · cases call
  · next some =>
    refine ⟨Nat.pos_of_ne_zero fun none => some (UInt32.toNat_inj.1 none), ?_⟩
    exact (Prod.mk.inj call).2.symm

theorem eq_of_missed (call : s.acquire = (false, next)) : next = s := by
  unfold Semaphore.acquire at call
  split at call
  · exact (Prod.mk.inj call).2.symm
  · cases call

/-- No call takes the free slots past the maximum, whatever is released. -/
theorem Course.within (course : start.Course admitted released acquired s)
    (within : start.available ≤ start.maxCount) :
    s.maxCount = start.maxCount ∧ s.available ≤ start.maxCount := by
  induction course with
  | refl => exact ⟨rfl, within⟩
  | release course allowed call ih =>
    obtain ⟨held, rfl⟩ := of_release call
    exact ⟨ih.1, ih.1 ▸ UInt32.le_iff_toNat_le.2 held⟩
  | refuse course call ih => exact ih
  | acquire course call ih =>
    obtain ⟨free, rfl⟩ := of_acquire call
    have rest := toNat_sub_one free
    have le := UInt32.le_iff_toNat_le.1 ih.2
    exact ⟨ih.1, UInt32.le_iff_toNat_le.2 (by dsimp only; omega)⟩
  | miss course call ih => exact eq_of_missed call ▸ ih

/-- Where every sum is told, no slot is lost and none is won. -/
theorem Course.balance (course : start.Course admitted released acquired s)
    (told : ∀ s count, admitted s count → s.Discerns count) :
    s.available.toNat + acquired = start.available.toNat + released := by
  induction course with
  | refl => rfl
  | release course allowed call ih =>
    obtain ⟨held, rfl⟩ := of_release call
    have sum := toNat_saturatingAdd_of_le ((told _ _ allowed).le_iff.1 held)
    dsimp only
    omega
  | refuse course call ih => exact ih
  | acquire course call ih =>
    obtain ⟨free, rfl⟩ := of_acquire call
    have rest := toNat_sub_one free
    dsimp only
    omega
  | miss course call ih => exact eq_of_missed call ▸ ih

/-- **The slots of a semaphore are counted exactly.** A semaphore is made unless more slots are to
be free than the maximum. From then on the free slots never pass the maximum, each call acquires
one slot as long as one is free, and a release keeps to whole numbers exactly if its sum can be
told, and takes the sum for the maximum else; through releases whose sums can be told, the free
slots are those at the beginning and those released, without those acquired. -/
theorem counts_exactly (name : String) (initial maxCount : UInt32) :
    (∀ error, make name initial maxCount = .error error ↔
      maxCount < initial ∧ error = .exceedsMaximum initial maxCount) ∧
    ∀ {start s : Semaphore} {admitted : Semaphore → UInt32 → Prop} {released acquired : Nat},
      make name initial maxCount = .ok start → start.Course admitted released acquired s →
        s.maxCount = maxCount ∧ s.available ≤ maxCount ∧ s.AcquiresExactly ∧
        (∀ count, s.ReleasesExactly count ↔ s.Discerns count) ∧
        (∀ count, ¬ s.Discerns count →
          s.release count = .ok (s.available, { s with available := s.maxCount })) ∧
        ((∀ s count, admitted s count → s.Discerns count) →
          (s.available.toNat : Int) = initial.toNat + released - acquired) := by
  refine ⟨fun error => make_eq_error_iff, fun made course => ?_⟩
  obtain ⟨within, rfl⟩ := of_make made
  obtain ⟨same, le⟩ := course.within within
  refine ⟨same, le, acquiresExactly _, fun count => releasesExactly_iff,
    fun count => release_of_untold, fun told => ?_⟩
  have balance := course.balance told
  dsimp only at balance
  omega

/-- A semaphore just below the largest word is released up to its maximum and acquired once; between
the two, a release that would pass the largest word is refused. -/
theorem counts_exactly_near_largest : ∃ start s : Semaphore,
    make "slots" 0xFFFFFFF0 0xFFFFFFFE = .ok start ∧ start.Course Discerns 14 1 s ∧
      (s.available.toNat : Int) = 0xFFFFFFF0 + 14 - 1 ∧ s.ReleasesExactly 0xFFFFFFFF := by
  have made : make "slots" 0xFFFFFFF0 0xFFFFFFFE = .ok ⟨"slots", 0xFFFFFFF0, 0xFFFFFFFE⟩ := rfl
  have released : release ⟨"slots", 0xFFFFFFF0, 0xFFFFFFFE⟩ 14
      = .ok (0xFFFFFFF0, ⟨"slots", 0xFFFFFFFE, 0xFFFFFFFE⟩) := rfl
  have refused : release ⟨"slots", 0xFFFFFFFE, 0xFFFFFFFE⟩ 0xFFFFFFFF
      = .error (.exceedsMaximum 0xFFFFFFFF 0xFFFFFFFE) := rfl
  have acquired : acquire ⟨"slots", 0xFFFFFFFE, 0xFFFFFFFE⟩
      = (true, ⟨"slots", 0xFFFFFFFD, 0xFFFFFFFE⟩) := rfl
  have told : Discerns ⟨"slots", 0xFFFFFFF0, 0xFFFFFFFE⟩ 14 := .inl (by decide)
  have course := ((Course.refl.release told released).refuse refused).acquire acquired
  obtain ⟨-, -, -, exact, -, balance⟩ := (counts_exactly _ _ _).2 made course
  exact ⟨_, _, made, course, balance fun _ _ told => told, (exact _).2 (.inr (by decide))⟩

/-- A semaphore whose maximum is the largest word accepts a release that passes it, and loses the
slots beyond. -/
theorem exists_lost_slots : ∃ start s : Semaphore,
    make "slots" 1 0xFFFFFFFF = .ok start ∧
      start.Course (fun _ _ => True) 0xFFFFFFFF 0 s ∧
      ¬ start.ReleasesExactly 0xFFFFFFFF ∧
      (s.available.toNat : Int) ≠ 1 + 0xFFFFFFFF - 0 := by
  have released : release ⟨"slots", 1, 0xFFFFFFFF⟩ 0xFFFFFFFF
      = .ok (1, ⟨"slots", 0xFFFFFFFF, 0xFFFFFFFF⟩) := rfl
  have untold : ¬ Discerns ⟨"slots", 1, 0xFFFFFFFF⟩ 0xFFFFFFFF := by
    unfold Discerns
    decide
  exact ⟨_, _, rfl, Course.refl.release trivial released, mt releasesExactly_iff.1 untold,
    by decide⟩

end MicrokernelIpc.Semaphore
