import AthenaAI.Context.Cosine
import AthenaAI.Python.Number
import Mathlib.Analysis.Real.Pi.Irrational
import Mathlib.Analysis.SpecialFunctions.Trigonometric.Angle

/-!
# The embedder of the tests

`MockEmbedder` of `athenai.rag.embedder`, which makes the embedding of a text from the sum of the
code points of its characters.

* `Maths` is the arithmetic of floats that it uses. `makeEmbedding` and `embed` are the methods.
* `Maths.real` is the arithmetic of the real numbers, in which the embedding of a text is a piece of
  a sine curve (`wave`), scaled to length one. As `π` is irrational, no two sums give the same curve
  (`eq_of_wave_eq`).
* `makeEmbedding_eq_ok`: in two dimensions or more every text has an embedding.
* `matches_first`: in a ranking of such embeddings exactly the texts with the sum of the query have
  a similarity of one, and they come first.
-/

/-- The arithmetic of floats with the module `math`. -/
structure Maths (F : Type) where
  /-- `float(n)`, and `n` as an operand beside a float. -/
  float : ℕ → F
  /-- `0.01`. -/
  hundredth : F
  /-- `x + y`. -/
  add : F → F → F
  /-- `x * y`. -/
  mul : F → F → F
  /-- `x / y`, where `y` is not zero. -/
  div : F → F → F
  /-- `sum(xs)`. -/
  sum : List F → F
  /-- `math.sin`. -/
  sin : F → F
  /-- `math.sqrt`. -/
  sqrt : F → F

/-- The arithmetic of the real numbers. -/
noncomputable def Maths.real : Maths ℝ where
  float n := n
  hundredth := 1 / 100
  add := (· + ·)
  mul := (· * ·)
  div := (· / ·)
  sum := List.sum
  sin := Real.sin
  sqrt := Real.sqrt

namespace MockEmbedder

variable {F : Type} [Zero F] [DecidableEq F] (maths : Maths F)

/-- `sum(ord(c) for c in text)`. -/
def codeSum (text : PyStr) : ℕ := (text.map Char.toNat).sum

/-- `x / magnitude`. -/
def quotient (magnitude x : F) : Except PyExc F :=
  if magnitude = 0 then .error (Floats.zeroDivision "float division by zero".toList)
  else .ok (maths.div x magnitude)

/-- `MockEmbedder._make_embedding`. -/
def makeEmbedding (dimensions : ℤ) (text : PyStr) : Except PyExc (List F) :=
  let seed := maths.float (codeSum text)
  -- a range of a negative number is empty
  let base := (List.range dimensions.toNat).map fun i =>
    maths.sin (maths.add seed (maths.mul (maths.float i) maths.hundredth))
  let magnitude := maths.sqrt (maths.sum (base.map fun x => maths.mul x x))
  base.mapM (quotient maths magnitude)

/-- `MockEmbedder.embed`. -/
def embed (dimensions : ℤ) (texts : List PyStr) : Except PyExc (List (List F)) :=
  texts.mapM (makeEmbedding maths dimensions)

/-! ## Sine curves -/

/-- A piece of a sine curve. -/
noncomputable def wave (d n : ℕ) : List ℝ :=
  (List.range d).map fun i : ℕ => Real.sin (n + i * (1 / 100))

/-- The sine has no rational zeros but the origin. -/
theorem sin_ratCast_eq_zero_iff {q : ℚ} : Real.sin q = 0 ↔ q = 0 := by
  constructor
  · intro h
    obtain ⟨k, hk⟩ := Real.sin_eq_zero_iff.mp h
    by_cases hzero : k = 0
    · rw [hzero, Int.cast_zero, zero_mul] at hk
      exact_mod_cast hk.symm
    · exact absurd hk ((irrational_pi.intCast_mul hzero).ne_rat q)
  · rintro rfl
    simp

/-- Only a piece of one point may be zero, the one at the origin: of two neighbouring points of a
sine curve at most one is zero, since the sine has no rational zeros but that. -/
theorem wave_eq_zero_iff {d n : ℕ} (hd : 0 < d) : (∀ x ∈ wave d n, x = 0) ↔ d = 1 ∧ n = 0 := by
  have hsin (i : ℕ) : Real.sin (n + i * (1 / 100)) = 0 ↔ n = 0 ∧ i = 0 := by
    have hcast : (n + i * (1 / 100) : ℝ) = ((n + i * (1 / 100) : ℚ) : ℝ) := by push_cast; rfl
    have hn : (0 : ℚ) ≤ n := n.cast_nonneg
    have hi : (0 : ℚ) ≤ i * (1 / 100) := by positivity
    rw [hcast, sin_ratCast_eq_zero_iff, add_eq_zero_iff_of_nonneg hn hi]
    simp
  simp only [wave, List.forall_mem_map, List.mem_range, hsin]
  constructor
  · intro h
    refine ⟨?_, (h 0 hd).1⟩
    by_contra hone
    exact one_ne_zero (h 1 (by omega)).2
  · rintro ⟨rfl, rfl⟩ i hi
    exact ⟨rfl, Nat.lt_one_iff.mp hi⟩

/-- Pieces of sine curves that begin at different integers have different directions, if they have
two points at least. -/
theorem eq_of_wave_eq {d m n : ℕ} (hd : 2 ≤ d) {a b : ℝ} (ha : 0 < a) (hb : 0 < b)
    (h : (wave d m).map (· / a) = (wave d n).map (· / b)) : m = n := by
  rw [wave, wave, List.map_map, List.map_map, List.map_inj_left] at h
  have hzero : Real.sin m / a = Real.sin n / b := by
    simpa using h 0 (List.mem_range.mpr (by omega))
  have hone : Real.sin (m + 1 / 100) / a = Real.sin (n + 1 / 100) / b := by
    simpa using h 1 (List.mem_range.mpr (by omega))
  -- two points of a curve determine its sine and its cosine
  have hstep : Real.sin (1 / 100) ≠ 0 := by
    have hq := (sin_ratCast_eq_zero_iff (q := 1 / 100)).not.mpr (by norm_num)
    push_cast at hq
    exact hq
  obtain ⟨r, hr, hra⟩ : ∃ r : ℝ, 0 < r ∧ a = r * b := ⟨a / b, by positivity, by field_simp⟩
  have hsin : Real.sin m = r * Real.sin n := by
    rw [hra] at hzero
    field_simp at hzero
    linarith
  have hcos : Real.cos m = r * Real.cos n := by
    rw [hra, Real.sin_add, Real.sin_add, hsin] at hone
    field_simp at hone
    have hmul : Real.sin (1 / 100) * Real.cos m = Real.sin (1 / 100) * (r * Real.cos n) := by
      linarith
    exact mul_left_cancel₀ hstep hmul
  have hunit : r = 1 := by
    have hsq : r ^ 2 = 1 := by
      have hm := Real.sin_sq_add_cos_sq (m : ℝ)
      have hn := Real.sin_sq_add_cos_sq (n : ℝ)
      rw [hsin, hcos] at hm
      linear_combination hm - r ^ 2 * hn
    exact (pow_eq_one_iff_of_nonneg hr.le two_ne_zero).mp hsq
  rw [hunit, one_mul] at hsin hcos
  obtain ⟨k, hk⟩ := Real.Angle.angle_eq_iff_two_pi_dvd_sub.mp (Real.Angle.cos_sin_inj hcos hsin)
  by_cases hzero : k = 0
  · rw [hzero, Int.cast_zero, mul_zero, sub_eq_zero] at hk
    exact_mod_cast hk
  -- otherwise `π` is rational
  · have hirrational := irrational_pi.intCast_mul (m := 2 * k) (by omega)
    refine absurd ?_ (hirrational.ne_int (m - n))
    push_cast
    linarith

/-! ## Vectors of length one -/

/-- The square of a difference, summed over the components of two vectors. -/
theorem sum_sub_sq {u v : List ℝ} (h : u.length = v.length) :
    (List.zipWith (fun x y => (x - y) ^ 2) u v).sum =
      (u.map (· ^ 2)).sum + (v.map (· ^ 2)).sum - 2 * (List.zipWith (· * ·) u v).sum := by
  induction u generalizing v with
  | nil =>
    obtain rfl := List.length_eq_zero_iff.mp h.symm
    simp
  | cons x u ih =>
    obtain ⟨y, v, rfl⟩ := List.exists_cons_of_length_eq_add_one h.symm
    simp only [List.zipWith_cons_cons, List.map_cons, List.sum_cons, ih (Nat.succ.inj h)]
    ring

theorem zipWith_sub_sq_nonneg (u v : List ℝ) :
    ∀ x ∈ List.zipWith (fun x y => (x - y) ^ 2) u v, 0 ≤ x := by
  intro x hx
  rw [← List.map_uncurry_zip_eq_zipWith, List.mem_map] at hx
  obtain ⟨pair, -, rfl⟩ := hx
  exact sq_nonneg _

theorem eq_of_sum_sub_sq {u v : List ℝ} (h : u.length = v.length)
    (hsum : (List.zipWith (fun x y => (x - y) ^ 2) u v).sum = 0) : u = v := by
  have hzero : ∀ x ∈ List.zipWith (fun x y => (x - y) ^ 2) u v, x = 0 := fun _ hx =>
    List.all_zero_of_le_zero_le_of_sum_eq_zero (zipWith_sub_sq_nonneg u v) hsum hx
  clear hsum
  induction u generalizing v with
  | nil => exact (List.length_eq_zero_iff.mp h.symm).symm
  | cons x u ih =>
    obtain ⟨y, v, rfl⟩ := List.exists_cons_of_length_eq_add_one h.symm
    have hxy : x - y = 0 := pow_eq_zero_iff two_ne_zero |>.mp (hzero _ List.mem_cons_self)
    rw [sub_eq_zero.mp hxy, ih (Nat.succ.inj h) fun z hz => hzero z (List.mem_cons_of_mem _ hz)]

theorem norm_eq_one_iff {v : List ℝ} : Numpy.real.norm v = 1 ↔ (v.map (· ^ 2)).sum = 1 := by
  rw [Numpy.real, Real.sqrt_eq_one]

/-- The products of two vectors of length one sum up to at most one, and to one only if the vectors
are the same. -/
theorem sumProducts_le_one {u v : List ℝ} (h : u.length = v.length)
    (hu : Numpy.real.norm u = 1) (hv : Numpy.real.norm v = 1) :
    (List.zipWith (· * ·) u v).sum ≤ 1 ∧ ((List.zipWith (· * ·) u v).sum = 1 ↔ u = v) := by
  rw [norm_eq_one_iff] at hu hv
  have hsub := sum_sub_sq h
  rw [hu, hv] at hsub
  have hnonneg := List.sum_nonneg (zipWith_sub_sq_nonneg u v)
  refine ⟨by linarith, fun hone => eq_of_sum_sub_sq h (by linarith), ?_⟩
  rintro rfl
  have hself : (List.zipWith (· * ·) u u).sum = (u.map (· ^ 2)).sum := by
    simp [List.zipWith_self, sq]
  rw [hself, hu]

/-- A vector that is not zero is scaled to length one. -/
theorem norm_scale_norm {v : List ℝ} (h : Numpy.real.norm v ≠ 0) :
    Numpy.real.norm (v.map (· / Numpy.real.norm v)) = 1 := by
  have hsq : (v.map (· ^ 2)).sum = Numpy.real.norm v ^ 2 := by
    refine (Real.sq_sqrt (List.sum_nonneg ?_)).symm
    exact List.forall_mem_map.mpr fun x _ => sq_nonneg x
  have hscaled : (v.map (· / Numpy.real.norm v)).map (· ^ 2) =
      (v.map fun x => x ^ 2 * (Numpy.real.norm v ^ 2)⁻¹) := by
    simp [div_eq_mul_inv, mul_pow, Function.comp_def]
  rw [norm_eq_one_iff, hscaled, List.sum_map_mul_right, hsq, mul_inv_cancel₀ (pow_ne_zero 2 h)]

/-! ## The embeddings -/

/-- The direction of a piece of a sine curve. -/
noncomputable def direction (d n : ℕ) : List ℝ :=
  (wave d n).map (· / Numpy.real.norm (wave d n))

variable {dimensions : ℤ} {d m n : ℕ} {text : PyStr}

/-- The only piece of a sine curve of norm zero is the single zero at the origin: two neighbouring
points are never both zeros. -/
theorem norm_wave_eq_zero_iff (hd : 0 < d) : Numpy.real.norm (wave d n) = 0 ↔ d = 1 ∧ n = 0 :=
  Numpy.norm_real_eq_zero_iff.trans (wave_eq_zero_iff hd)

/-- The embedding of a text is made from a piece of a sine curve, the `wave` at the sum of its code
points, by dividing each point by the norm. -/
theorem makeEmbedding_real (dimensions : ℤ) (text : PyStr) :
    makeEmbedding Maths.real dimensions text = (wave dimensions.toNat (codeSum text)).mapM
      (quotient Maths.real (Numpy.real.norm (wave dimensions.toNat (codeSum text)))) := by
  have hmagnitude : Maths.real.sqrt (Maths.real.sum ((wave dimensions.toNat (codeSum text)).map
      fun x => Maths.real.mul x x)) = Numpy.real.norm (wave dimensions.toNat (codeSum text)) := by
    simp [Maths.real, Numpy.real, sq]
  rw [← hmagnitude]
  rfl

/-- The embedding of a text is the `direction` of its piece, unless this piece is the one point at
the origin. -/
theorem makeEmbedding_eq_ok (h : dimensions ≠ 1 ∨ codeSum text ≠ 0) :
    makeEmbedding Maths.real dimensions text =
      .ok (direction dimensions.toNat (codeSum text)) := by
  rw [makeEmbedding_real, Except.mapM_eq_ok_iff, direction, List.forall₂_map_right_iff]
  refine List.forall₂_same.mpr fun x hx => if_neg fun hnorm => ?_
  have hd : 0 < dimensions.toNat := by
    by_contra hd
    rw [Nat.eq_zero_of_not_pos hd] at hx
    exact List.not_mem_nil hx
  obtain ⟨hone, hzero⟩ := (norm_wave_eq_zero_iff hd).mp hnorm
  exact h.elim (fun h => h (by omega)) fun h => h hzero

/-- A direction has as many components as the embedder has dimensions. -/
theorem length_direction (d n : ℕ) : (direction d n).length = d := by
  simp [direction, wave]

theorem norm_direction (hd : 2 ≤ d) (n : ℕ) : Numpy.real.norm (direction d n) = 1 := by
  refine norm_scale_norm fun hnorm => ?_
  have hone := ((norm_wave_eq_zero_iff (by omega)).mp hnorm).1
  omega

/-- With two dimensions or more, directions are equal exactly if the pieces begin at the same
integer; so texts have the same embedding exactly if their code points have the same sum. -/
theorem direction_inj (hd : 2 ≤ d) : direction d m = direction d n ↔ m = n := by
  have hpos (n : ℕ) : 0 < Numpy.real.norm (wave d n) := by
    refine lt_of_le_of_ne (Real.sqrt_nonneg _) fun hnorm => ?_
    have hone := ((norm_wave_eq_zero_iff (by omega)).mp hnorm.symm).1
    omega
  exact ⟨eq_of_wave_eq hd (hpos m) (hpos n), fun h => congrArg (direction d) h⟩

/-! ## Ranking -/

open RelevanceRanker (similarity rank rankPlaced)

/-- A chunk with its embedding. -/
def candidate (text : PyStr) (v : List ℝ) : CandidateChunk ℝ :=
  ⟨[(.str "content".toList, .str text)], some v⟩

/-- The similarity of two embeddings is at most one, and it is one exactly for texts whose code
points have the same sum. -/
theorem similarity_le_one (hd : 2 ≤ d) (m n : ℕ) (text : PyStr) :
    similarity (direction d m) (candidate text (direction d n)) ≤ 1 ∧
      (similarity (direction d m) (candidate text (direction d n)) = 1 ↔ n = m) := by
  have hsimilarity : similarity (direction d m) (candidate text (direction d n)) =
      (List.zipWith (· * ·) (direction d m) (direction d n)).sum := by
    show (List.zipWith (· * ·) (direction d m) (direction d n)).sum /
      (Numpy.real.norm (direction d m) * Numpy.real.norm (direction d n)) = _
    rw [norm_direction hd, norm_direction hd, mul_one, div_one]
  have hlength : (direction d m).length = (direction d n).length := by
    rw [length_direction, length_direction]
  obtain ⟨hle, hone⟩ := sumProducts_le_one hlength (norm_direction hd m) (norm_direction hd n)
  rw [hsimilarity]
  exact ⟨hle, hone.trans ((direction_inj hd).trans eq_comm)⟩

/-- The texts as chunks with their embeddings. -/
noncomputable def candidates (dimensions : ℤ) (texts : List PyStr) : List (CandidateChunk ℝ) :=
  texts.map fun text => candidate text (direction dimensions.toNat (codeSum text))

/-- With two dimensions or more `embed` never divides by zero, and returns the `direction` of the
sum of the code points for every text. -/
theorem embed_eq_ok (h : 2 ≤ dimensions) (texts : List PyStr) :
    embed Maths.real dimensions texts =
      .ok (texts.map fun text => direction dimensions.toNat (codeSum text)) := by
  rw [embed, Except.mapM_eq_ok_iff, List.forall₂_map_right_iff]
  exact List.forall₂_same.mpr fun text _ => makeEmbedding_eq_ok (.inl (by omega))

/-- Vectors of the same number of dimensions can be compared by the ranker. -/
theorem aligned_candidate (d m n : ℕ) (text : PyStr) :
    RelevanceRanker.Aligned Numpy.real (direction d m) (candidate text (direction d n)) := by
  intro v hv _
  obtain rfl := Option.some.inj hv
  rw [length_direction, length_direction]

/-- An entry of a ranking has the text of its chunk, a score of at most one, and a score of one
exactly if the code points have the same sum. -/
theorem scored_candidate (hd : 2 ≤ d) {ranked : RankedChunk ℝ}
    (h : RelevanceRanker.scored Numpy.real (fun v => .ok v.text)
      (RelevanceRanker.unit Numpy.real (direction d m)) (candidate text (direction d n)) =
        .ok ranked) :
    ranked.content = text ∧ ranked.score ≤ 1 ∧ (ranked.score = 1 ↔ n = m) := by
  obtain ⟨hentry, hscore⟩ := RelevanceRanker.scored_eq_ok_iff.mp h
  rw [RelevanceRanker.scoreOf_real (aligned_candidate d m n text)] at hscore
  rw [← Except.ok.inj hscore]
  exact ⟨(Except.ok.inj hentry.content_eq).symm, similarity_le_one hd m n text⟩

/-- With two dimensions or more, every text has an embedding, and chunks are ranked by these against
a query as follows: the similarity is one exactly for the chunks whose code points have the same sum
as those of the query (`codeSum`), and smaller for the others; so these come first, in the order in
which they were given. -/
theorem matches_first (h : 2 ≤ dimensions) (query : PyStr) (texts : List PyStr) (topK : ℤ) :
    ∃ (q : List ℝ) (vs : List (List ℝ)) (placed : List (RankedChunk ℝ × ℕ)),
      embed Maths.real dimensions (query :: texts) = .ok (q :: vs) ∧
      rank Numpy.real (fun v => .ok v.text) q (List.zipWith candidate texts vs) topK =
        .ok (placed.map Prod.fst) ∧
      placed.length = min (RelevanceRanker.stop topK texts.length) texts.length ∧
      (∀ x ∈ placed, ∃ text, texts[x.2]? = some text ∧ x.1.content = text ∧ x.1.score ≤ 1 ∧
        (x.1.score = 1 ↔ codeSum text = codeSum query)) ∧
      placed.Pairwise fun x y => y.1.score = 1 → x.1.score = 1 ∧ x.2 < y.2 := by
  obtain ⟨d, rfl⟩ := Int.eq_ofNat_of_zero_le (by omega : 0 ≤ dimensions)
  have hd : 2 ≤ d := by exact_mod_cast h
  have hchunks : List.zipWith candidate texts
      (texts.map fun text => direction d (codeSum text)) = candidates d texts := by
    rw [List.zipWith_map_right, List.zipWith_self]
    rfl
  have hzero : ¬RelevanceRanker.IsZero Numpy.real (direction d (codeSum query)) := by
    rw [RelevanceRanker.isZero_real_iff, ← Numpy.norm_real_eq_zero_iff, norm_direction hd]
    exact one_ne_zero
  obtain ⟨placed, hplaced⟩ : ∃ placed, rankPlaced Numpy.real (fun v => .ok v.text)
      (direction d (codeSum query)) (candidates d texts) topK = .ok placed :=
    (RelevanceRanker.exists_rankPlaced_eq_ok_iff topK).mpr <| List.forall_mem_map.mpr
      fun text _ => ⟨⟨_, rfl⟩, aligned_candidate d (codeSum query) (codeSum text) text⟩
  obtain ⟨rows, hrows, hupTo⟩ := RelevanceRanker.rankPlaced_eq_ok_iff.mp hplaced
  have hlength : rows.length = texts.length := by
    rw [← hrows.length_eq, candidates, List.length_map]
  rw [FloatSort.sorted_real, RelevanceRanker.upTo, OrderBy.length_placed, hlength] at hupTo
  have hentry : ∀ x ∈ placed, ∃ text, texts[x.2]? = some text ∧ x.1.content = text ∧
      x.1.score ≤ 1 ∧ (x.1.score = 1 ↔ codeSum text = codeSum query) := by
    intro x hx
    rw [hupTo] at hx
    have hrow := OrderBy.mem_placed_iff.mp (List.mem_of_mem_take hx)
    obtain ⟨c, hc, hscored⟩ := RelevanceRanker.exists_getElem?_of_forall₂ hrows hrow
    rw [candidates, List.getElem?_map, Option.map_eq_some_iff] at hc
    obtain ⟨text, htext, rfl⟩ := hc
    exact ⟨text, htext, scored_candidate hd hscored⟩
  refine ⟨_, _, placed, embed_eq_ok h (query :: texts), ?_, ?_, hentry, ?_⟩
  · rw [Int.toNat_natCast, hchunks, RelevanceRanker.rank_eq_rankPlaced hzero, hplaced]
    rfl
  · rw [hupTo, List.length_take, OrderBy.length_placed, hlength]
  · have hordered := (OrderBy.pairwise_placed RankedChunk.score rows).sublist
      (List.take_sublist (RelevanceRanker.stop topK texts.length) _)
    rw [← hupTo] at hordered
    refine hordered.imp_of_mem fun hx _ hbefore hone => ?_
    -- what comes before a similarity of one has no greater one
    obtain ⟨-, -, -, hle, -⟩ := hentry _ hx
    rcases hbefore with hlt | ⟨heq, hposition⟩
    · exact absurd (hone ▸ hlt) (not_lt.mpr hle)
    · exact ⟨heq.trans hone, hposition⟩

/-- `matches_first` for a query and two texts: the one with the letters of the query in another
order has a similarity of one, and comes first. -/
theorem matches_first_anagram :
    ∃ (q : List ℝ) (vs : List (List ℝ)) (placed : List (RankedChunk ℝ × ℕ)),
      embed Maths.real 2 ["tea".toList, "zoo".toList, "eat".toList] = .ok (q :: vs) ∧
      rank Numpy.real (fun v => .ok v.text) q
        (List.zipWith candidate ["zoo".toList, "eat".toList] vs) 5 = .ok (placed.map Prod.fst) ∧
      placed.length = 2 ∧
      (∀ x ∈ placed, x.1.score = 1 ↔ x.1.content = "eat".toList) ∧
      placed.Pairwise fun x y => y.1.score = 1 → x.1.score = 1 ∧ x.2 < y.2 := by
  obtain ⟨q, vs, placed, hembed, hrank, hlength, hentry, hpairwise⟩ :=
    matches_first le_rfl "tea".toList ["zoo".toList, "eat".toList] 5
  refine ⟨q, vs, placed, hembed, hrank, hlength, fun x hx => ?_, hpairwise⟩
  obtain ⟨text, htext, hcontent, -, hone⟩ := hentry x hx
  rw [hone, hcontent]
  rcases List.mem_pair.mp (List.mem_of_getElem? htext) with rfl | rfl
  · decide
  · decide

end MockEmbedder
