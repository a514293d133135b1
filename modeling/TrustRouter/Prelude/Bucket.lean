import Mathlib.Algebra.Order.Field.Basic
import Mathlib.Algebra.Order.Floor.Ring
import Mathlib.Tactic.Linarith
import TrustRouter.Prelude.Run

/-!
# Token buckets

A bucket fills at a constant rate up to its capacity, and a caller who finds at least one
token in it takes one.  Levels and times are elements of any ordered field.

What the bucket promises is a bound on the callers it serves in a window of time, however
they arrive.  It is read off a potential: the number of callers served since the window
began and the level of the bucket together grow no faster than the rate (`served_le`,
`served_window_le`).

A bucket only counts the time between one call and the next, so where the clock goes back
and forth it counts the same time again.  It never serves more than its capacity and what
flows in while the clock goes forward (`length_served_le`).  That is the time that has
passed where the clock never goes forward again once it has gone back (`NoReturn`), and a
clock that keeps going back and forth fills the bucket without end
(`level_add_le_served_backAndForth`).

Taking several tokens at one instant is taking one several times.  It succeeds exactly
when the level allows it, and where it does not, all whole tokens are gone and the
fraction is left (`takes_of_level_lt`).
-/

namespace TrustRouter

/-- A bucket, and the time up to which it has been filled. -/
@[ext] structure Bucket (K : Type*) where
  level : K
  filledAt : K

namespace Bucket

variable {K : Type*} [Field K] [LinearOrder K]

section

variable (capacity rate : K)

/-- Fill up to a time.  A time before the last one fills nothing. -/
def fill (bucket : Bucket K) (now : K) : Bucket K where
  level := min (bucket.level + max (now - bucket.filledAt) 0 * rate) capacity
  filledAt := now

/-- Take a token, if there is one. -/
def take (bucket : Bucket K) : Bucket K :=
  if 1 ≤ bucket.level then { bucket with level := bucket.level - 1 } else bucket

/-- One caller: fill, then take. -/
def acquire (bucket : Bucket K) (now : K) : Bucket K := (bucket.fill capacity rate now).take

/-- The times of the callers that are served. -/
def served : Bucket K → List K → List K
  | _, [] => []
  | bucket, now :: rest =>
      (if 1 ≤ (bucket.fill capacity rate now).level then [now] else []) ++
        served (bucket.acquire capacity rate now) rest

/-- The number of callers served between two times. -/
def servedIn (bucket : Bucket K) (calls : List K) (start stop : K) : ℕ :=
  (bucket.served capacity rate calls).countP fun now => start ≤ now ∧ now ≤ stop

end

variable {capacity rate : K} {bucket : Bucket K}

@[simp] theorem fill_filledAt (now : K) : (bucket.fill capacity rate now).filledAt = now := rfl

theorem fill_level_le (bucket : Bucket K) (capacity rate now : K) :
    (bucket.fill capacity rate now).level ≤ capacity :=
  min_le_right _ _

@[simp] theorem take_filledAt : bucket.take.filledAt = bucket.filledAt := by
  unfold take
  split_ifs <;> rfl

@[simp] theorem acquire_filledAt (now : K) :
    (bucket.acquire capacity rate now).filledAt = now := by
  simp [acquire]

@[simp] theorem servedIn_nil (start stop : K) :
    bucket.servedIn capacity rate [] start stop = 0 := rfl

theorem servedIn_cons (now : K) (rest : List K) (start stop : K) :
    bucket.servedIn capacity rate (now :: rest) start stop =
      (if 1 ≤ (bucket.fill capacity rate now).level ∧ start ≤ now ∧ now ≤ stop then 1 else 0) +
        (bucket.acquire capacity rate now).servedIn capacity rate rest start stop := by
  unfold servedIn
  rw [served, List.countP_append]
  congr 1
  by_cases enough : 1 ≤ (bucket.fill capacity rate now).level <;> simp [enough]

/-- A caller who is served takes one token. -/
theorem acquire_level (bucket : Bucket K) (capacity rate now : K) :
    (bucket.acquire capacity rate now).level = (bucket.fill capacity rate now).level -
      if 1 ≤ (bucket.fill capacity rate now).level then 1 else 0 := by
  rw [acquire, take]
  split_ifs
  · rfl
  · exact (sub_zero _).symm

theorem length_served_cons (bucket : Bucket K) (capacity rate now : K) (rest : List K) :
    ((bucket.served capacity rate (now :: rest)).length : K) =
      (if 1 ≤ (bucket.fill capacity rate now).level then 1 else 0) +
        ((bucket.acquire capacity rate now).served capacity rate rest).length := by
  rw [served, List.length_append, Nat.cast_add]
  split_ifs <;> simp

/-- Nobody is served in a window that is over before the first call. -/
theorem servedIn_eq_zero {now start stop : K} {rest : List K} (late : stop < now)
    (ordered : (now :: rest).Pairwise (· ≤ ·)) :
    bucket.servedIn capacity rate (now :: rest) start stop = 0 := by
  induction rest generalizing bucket now with
  | nil => simp [servedIn_cons, late]
  | cons next rest ih =>
      obtain ⟨first, ordered⟩ := List.pairwise_cons.mp ordered
      have late' : stop < next := late.trans_le (first next List.mem_cons_self)
      simp [servedIn_cons now, late, ih late' ordered]

variable [IsStrictOrderedRing K]

/-- A caller is served at the cost of one token, and nobody else takes any. -/
theorem servedIn_cons_add_level_le (bucket : Bucket K) (capacity rate now : K)
    (rest : List K) (start stop : K) :
    (bucket.servedIn capacity rate (now :: rest) start stop : K) +
        (bucket.acquire capacity rate now).level ≤
      (bucket.fill capacity rate now).level +
        (bucket.acquire capacity rate now).servedIn capacity rate rest start stop := by
  rw [servedIn_cons, Nat.cast_add, acquire, take]
  split_ifs with counted enough enough
  · push_cast
    linarith
  · exact absurd counted.1 enough
  · push_cast
    linarith
  · push_cast
    linarith

theorem take_level_nonneg (nonneg : 0 ≤ bucket.level) : 0 ≤ bucket.take.level := by
  unfold take
  split_ifs with enough
  · exact sub_nonneg.mpr enough
  · exact nonneg

theorem take_level_le : bucket.take.level ≤ bucket.level := by
  unfold take
  split_ifs with enough
  · exact (sub_lt_self _ one_pos).le
  · exact le_rfl

theorem fill_level_nonneg (positive : 0 ≤ capacity) (rising : 0 ≤ rate)
    (nonneg : 0 ≤ bucket.level) (now : K) : 0 ≤ (bucket.fill capacity rate now).level :=
  le_min (add_nonneg nonneg (mul_nonneg (le_max_right _ _) rising)) positive

/-- Time that passes adds no more than the rate allows. -/
theorem fill_level_le_add (capacity rate : K) {now : K} (later : bucket.filledAt ≤ now) :
    (bucket.fill capacity rate now).level ≤ bucket.level + (now - bucket.filledAt) * rate := by
  have elapsed : max (now - bucket.filledAt) 0 = now - bucket.filledAt :=
    max_eq_left (sub_nonneg.mpr later)
  exact (min_le_left _ _).trans_eq (by rw [elapsed])

/-- The levels a bucket can have. -/
def InBounds (capacity : K) (bucket : Bucket K) : Prop :=
  0 ≤ bucket.level ∧ bucket.level ≤ capacity

theorem InBounds.acquire (bounds : bucket.InBounds capacity) (rising : 0 ≤ rate) (now : K) :
    (bucket.acquire capacity rate now).InBounds capacity := by
  have positive : 0 ≤ capacity := bounds.1.trans bounds.2
  exact ⟨take_level_nonneg (fill_level_nonneg positive rising bounds.1 now),
    take_level_le.trans (fill_level_le bucket capacity rate now)⟩

/-! ### Windows -/

/-- **The potential argument.**  The callers served from now on up to some time are paid for
by the level of the bucket and by what flows in until then. -/
theorem served_le (rising : 0 ≤ rate) (start : K) {stop : K} (calls : List K)
    (bounds : bucket.InBounds capacity) (running : bucket.filledAt ≤ stop)
    (ordered : (bucket.filledAt :: calls).Pairwise (· ≤ ·)) :
    (bucket.servedIn capacity rate calls start stop : K) ≤
      bucket.level + (stop - bucket.filledAt) * rate := by
  have flow : 0 ≤ (stop - bucket.filledAt) * rate :=
    mul_nonneg (sub_nonneg.mpr running) rising
  induction calls generalizing bucket with
  | nil => simpa using add_nonneg bounds.1 flow
  | cons now rest ih =>
      obtain ⟨later, ordered⟩ := List.pairwise_cons.mp ordered
      rcases le_or_gt now stop with inside | after
      · have filled := fill_level_le_add capacity rate (later now List.mem_cons_self)
        -- the rest is paid for from `now` on, and the time until then pays for this call
        have rest_le := ih (bounds.acquire rising now)
          (by simpa using inside) (by simpa using ordered)
          (by simpa using mul_nonneg (sub_nonneg.mpr inside) rising)
        have step := servedIn_cons_add_level_le bucket capacity rate now rest start stop
        rw [acquire_filledAt] at rest_le
        linarith
      -- the instants do not decrease, so nobody later is in the window either
      · simpa [servedIn_eq_zero after ordered] using add_nonneg bounds.1 flow

/-- **A bucket serves no more than its capacity and what flows in during a window.** -/
theorem served_window_le (rising : 0 ≤ rate) {start stop : K} (window : start ≤ stop)
    (calls : List K) (bounds : bucket.InBounds capacity) (ordered : calls.Pairwise (· ≤ ·)) :
    (bucket.servedIn capacity rate calls start stop : K) ≤ capacity + (stop - start) * rate := by
  have positive : 0 ≤ capacity := bounds.1.trans bounds.2
  have flow : 0 ≤ (stop - start) * rate := mul_nonneg (sub_nonneg.mpr window) rising
  induction calls generalizing bucket with
  | nil => simpa using add_nonneg positive flow
  | cons now rest ih =>
      rcases lt_or_ge now start with before | inside
      · rw [servedIn_cons, if_neg fun counted => not_le.mpr before counted.2.1, zero_add]
        exact ih (bounds.acquire rising now) (List.pairwise_cons.mp ordered).2
      rcases le_or_gt now stop with inside' | after
      · -- the first call of the window finds a level of at most the capacity
        have rest_le := served_le rising start rest (bounds.acquire rising now)
          (by simpa using inside') (by simpa using ordered)
        have step := servedIn_cons_add_level_le bucket capacity rate now rest start stop
        have full := fill_level_le bucket capacity rate now
        have shorter : (stop - now) * rate ≤ (stop - start) * rate :=
          mul_le_mul_of_nonneg_right (by linarith) rising
        rw [acquire_filledAt] at rest_le
        linarith
      · simpa [servedIn_eq_zero after ordered] using add_nonneg positive flow

/-- Who comes when a whole token has had the time to flow in is served. -/
theorem one_le_fill_level (nonneg : 0 ≤ bucket.level) (holdsOne : 1 ≤ capacity) {now : K}
    (waited : 1 ≤ (now - bucket.filledAt) * rate) (rising : 0 ≤ rate) :
    1 ≤ (bucket.fill capacity rate now).level := by
  have flow : (now - bucket.filledAt) * rate ≤ max (now - bucket.filledAt) 0 * rate :=
    mul_le_mul_of_nonneg_right (le_max_left _ _) rising
  exact le_min (by linarith) holdsOne

/-! ### Clocks that go back -/

/-- The time a clock goes forward in a list of readings, whatever it does in between. -/
def forward : K → List K → K
  | _, [] => 0
  | prev, now :: rest => max (now - prev) 0 + forward now rest

/-- **The potential argument, for any clock.**  The callers served are paid for by the level of
the bucket and by what flows in while the clock goes forward. -/
theorem length_served_le (rising : 0 ≤ rate) (bounds : bucket.InBounds capacity)
    (calls : List K) :
    ((bucket.served capacity rate calls).length : K) ≤
      bucket.level + forward bucket.filledAt calls * rate := by
  induction calls generalizing bucket with
  | nil => simpa [served, forward] using bounds.1
  | cons now rest ih =>
      have rest_le := ih (bounds.acquire rising now)
      have filled : (bucket.fill capacity rate now).level ≤
          bucket.level + max (now - bucket.filledAt) 0 * rate := min_le_left _ _
      rw [acquire_filledAt] at rest_le
      -- who is served takes a token, and the level that is left pays for the rest
      rw [acquire_level] at rest_le
      rw [length_served_cons, forward, add_mul]
      linarith

/-- A clock that, once it has gone back, never goes forward again: where it does go forward,
no reading so far was later. -/
def NoReturn {T : Type*} [LE T] [LT T] (times : List T) : Prop :=
  ∀ before prev now after, times = before ++ prev :: now :: after → prev < now →
    ∀ earlier ∈ before, earlier ≤ prev

theorem NoReturn.tail {T : Type*} [LE T] [LT T] {first : T} {rest : List T}
    (times : NoReturn (first :: rest)) : NoReturn rest := by
  rintro before prev now after rfl later earlier mem
  exact times (first :: before) prev now after rfl later earlier (List.mem_cons_of_mem _ mem)

theorem NoReturn.map {T U : Type*} [LinearOrder T] [LinearOrder U] {times : List T} {f : T → U}
    (mono : StrictMono f) (times' : NoReturn times) : NoReturn (times.map f) := by
  intro before prev now after split later earlier mem
  obtain ⟨before, _, rfl, rfl, here⟩ := List.map_eq_append_iff.mp split
  obtain ⟨prev, _, rfl, rfl, next⟩ := List.map_eq_cons_iff.mp here
  obtain ⟨now, after, rfl, rfl, -⟩ := List.map_eq_cons_iff.mp next
  obtain ⟨earlier, among, rfl⟩ := List.mem_map.mp mem
  exact mono.monotone (times' before prev now after rfl (mono.lt_iff_lt.mp later) earlier among)

/-- Once the clock has gone back, its readings do not increase. -/
theorem NoReturn.forward_eq_zero {first prev : K} {rest : List K} (back : prev < first)
    (times : NoReturn (first :: prev :: rest)) : forward prev rest = 0 := by
  induction rest generalizing prev with
  | nil => rfl
  | cons now rest ih =>
      have below : now ≤ prev := not_lt.mp fun later =>
        not_le.mpr back (times [first] prev now rest rfl later first List.mem_cons_self)
      have skipped : NoReturn (first :: now :: rest) := by
        intro before prev' now' after split later earlier mem
        rcases before with _ | ⟨_, before⟩
        · exact absurd mem List.not_mem_nil
        obtain ⟨rfl, rest_eq⟩ := List.cons.inj split
        -- what comes before in the shorter list does so in the longer one
        have longer : first :: prev :: now :: rest =
            first :: prev :: before ++ prev' :: now' :: after := by
          rw [rest_eq]
          rfl
        refine times _ prev' now' after longer later earlier ?_
        rcases List.mem_cons.mp mem with rfl | mem
        · exact List.mem_cons_self
        · exact List.mem_cons_of_mem _ (List.mem_cons_of_mem _ mem)
      rw [forward, max_eq_right (sub_nonpos.mpr below), zero_add]
      exact ih (below.trans_lt back) skipped

/-- Then the time the clock goes forward is no more than the time that has passed. -/
theorem NoReturn.forward_le {prev stop : K} {rest : List K} (times : NoReturn (prev :: rest))
    (running : prev ≤ stop) (within : ∀ now ∈ rest, now ≤ stop) :
    forward prev rest ≤ stop - prev := by
  induction rest generalizing prev with
  | nil => exact sub_nonneg.mpr running
  | cons now rest ih =>
      rw [forward]
      rcases le_or_gt prev now with later | back
      · rw [max_eq_left (sub_nonneg.mpr later)]
        have rest_le := ih times.tail (within now List.mem_cons_self)
          fun next mem => within next (List.mem_cons_of_mem _ mem)
        linarith
      · rw [times.forward_eq_zero back, max_eq_right (sub_neg.mpr back).le, add_zero]
        exact sub_nonneg.mpr running

/-- Readings that go back to one time and forward to another, again and again. -/
def backAndForth {T : Type*} (prev now : T) : ℕ → List T
  | 0 => []
  | n + 1 => prev :: now :: backAndForth prev now n

/-- What a call is worth: a caller who is not served finds the bucket fuller by all the time
that has passed. -/
theorem level_add_le_acquire (bounds : bucket.InBounds capacity) (holdsOne : 1 ≤ capacity)
    (rate now : K) :
    bucket.level + min (max (now - bucket.filledAt) 0 * rate) 1 ≤
      (capacity + 1) * (if 1 ≤ (bucket.fill capacity rate now).level then 1 else 0) +
        (bucket.acquire capacity rate now).level := by
  have level := bounds.2
  have rate_or : min (max (now - bucket.filledAt) 0 * rate) 1 ≤ 1 := min_le_right _ _
  rw [acquire_level]
  split_ifs with enough
  · linarith
  · -- the capacity has not cut anything off
    have filled : (bucket.fill capacity rate now).level =
        bucket.level + max (now - bucket.filledAt) 0 * rate :=
      min_eq_left (not_lt.mp fun cut => enough (by
        rw [fill, min_eq_right cut.le]
        exact holdsOne))
    have part := min_le_left (max (now - bucket.filledAt) 0 * rate) 1
    rw [filled]
    linarith

/-- **A clock that keeps going back and forth fills a bucket without end.** -/
theorem level_add_le_served_backAndForth (rising : 0 ≤ rate) (bounds : bucket.InBounds capacity)
    (holdsOne : 1 ≤ capacity) {prev now : K} (later : prev < now) (n : ℕ) :
    bucket.level + n * min ((now - prev) * rate) 1 ≤
      (capacity + 1) * (bucket.served capacity rate (backAndForth prev now n)).length +
        capacity := by
  induction n generalizing bucket with
  | zero => simpa [backAndForth, served] using bounds.2
  | succ n ih =>
      have rest_le := ih ((bounds.acquire rising prev).acquire rising now)
      have back := level_add_le_acquire bounds holdsOne rate prev
      have forth := level_add_le_acquire (bounds.acquire rising prev) holdsOne rate now
      have nothing : 0 ≤ min (max (prev - bucket.filledAt) 0 * rate) 1 :=
        le_min (mul_nonneg (le_max_right _ _) rising) zero_le_one
      rw [acquire_filledAt, max_eq_left (sub_pos.mpr later).le] at forth
      rw [backAndForth, length_served_cons, length_served_cons, mul_add, mul_add]
      push_cast
      linarith

/-! ### Several tokens at one instant -/

/-- Take tokens one by one until there is none: the level that is left, and whether there
were as many as asked for. -/
def takes : ℕ → K → K × Bool
  | 0, level => (level, true)
  | n + 1, level => if 1 ≤ level then takes n (level - 1) else (level, false)

theorem takes_of_le {n : ℕ} {level : K} (enough : n ≤ level) :
    takes n level = (level - n, true) := by
  induction n generalizing level with
  | zero => simp [takes]
  | succ n ih =>
      push_cast at enough ⊢
      have one : 1 ≤ level := by
        have nonneg : (0 : K) ≤ n := Nat.cast_nonneg n
        linarith
      rw [takes, if_pos one, ih (by linarith)]
      rw [sub_sub, add_comm (1 : K)]

/-- Where there are not enough tokens, all of them are gone. -/
theorem takes_of_lt [FloorRing K] {n : ℕ} {level : K} (nonneg : 0 ≤ level) (short : level < n) :
    takes n level = (Int.fract level, false) := by
  induction n generalizing level with
  | zero => exact absurd nonneg (not_le.mpr (by simpa using short))
  | succ n ih =>
      rw [takes]
      split_ifs with enough
      · rw [ih (sub_nonneg.mpr enough) (by push_cast at short; linarith), Int.fract_sub_one]
      -- less than a token is left, and it is never taken
      · rw [Int.fract_eq_self.mpr ⟨nonneg, not_le.mp enough⟩]

end Bucket

end TrustRouter
