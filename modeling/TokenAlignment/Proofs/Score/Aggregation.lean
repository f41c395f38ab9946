/-
TokenAlignment/Proofs/Score/Aggregation.lean

What aggregation computes.  In exact arithmetic the record of a language is the
byte-weighted mean of all records that went into it,

    value k  =  Σ (value k of r) · (bytes of r)  /  Σ (bytes of r),

and zero where there are no bytes.  The right side knows neither the order of the
records nor how they were grouped.

Design.  A record *sums* some records if it has their totals.  It *carries* them if it also
has their weight `Σ value · bytes` in each metric.  Every record carries itself, whatever its
values are, and a merge carries what its two parts carry: so weights add up where means do
not.  A merge moreover is the mean of what it carries (`Carries.merge`), also when it has no
bytes.

No total is there that is not exact.  So what an aggregation leads to is settled by the
records alone (`Yields`): a score that gathers them all if their totals fit, and none
otherwise.

Main result: `score_eq_mean`, for every tree of additions and absorptions.
-/
import TokenAlignment.Score.CorpusScore
import Mathlib.Algebra.BigOperators.Group.Multiset.Basic
import Mathlib.Algebra.Field.Rat
import Mathlib.Algebra.Order.BigOperators.Group.Multiset
import Mathlib.Algebra.Order.Ring.Nat
import Mathlib.Data.List.Induction
import Mathlib.Data.Nat.Cast.Basic

namespace TokenAlignment

/-- The averages of a record. -/
inductive Metric where
  | compression
  | identifierFertility
  | identifierSplitting
  | rawIdentifierSplitting
  | tokenSpan
  deriving DecidableEq, Repr

namespace Metrics

/-- The value of a record in a metric. -/
def value {α : Type} (m : Metrics α) : Metric → α
  | .compression => m.compression
  | .identifierFertility => m.identifierFertility
  | .identifierSplitting => m.identifierSplitting
  | .rawIdentifierSplitting => m.rawIdentifierSplitting
  | .tokenSpan => m.tokenSpan

theorem ext_value {α : Type} {a b : Metrics α} (hvalue : ∀ k, a.value k = b.value k)
    (htokens : a.totalTokens = b.totalTokens) (hbytes : a.totalBytes = b.totalBytes) :
    a = b := by
  obtain ⟨_, _, _, _, _, _, _⟩ := a
  obtain ⟨_, _, _, _, _, _, _⟩ := b
  have h₁ := hvalue .compression
  have h₂ := hvalue .identifierFertility
  have h₃ := hvalue .identifierSplitting
  have h₄ := hvalue .rawIdentifierSplitting
  have h₅ := hvalue .tokenSpan
  simp_all [value]

/-! ### Sums over records -/

/-- The tokens of some records. -/
def tokenSum {α : Type} (records : Multiset (Metrics α)) : ℕ :=
  (records.map (·.totalTokens.toNat)).sum

/-- The bytes of some records. -/
def byteSum {α : Type} (records : Multiset (Metrics α)) : ℕ :=
  (records.map (·.totalBytes.toNat)).sum

/-- The weight of some records in a metric: each value counts once for every byte. -/
def weightedSum (k : Metric) (records : Multiset (Metrics ℚ)) : ℚ :=
  (records.map fun m => m.value k * (m.totalBytes.toNat : ℚ)).sum

/-- The mean of some records in a metric by bytes, zero without bytes. -/
def byteMean (k : Metric) (records : Multiset (Metrics ℚ)) : ℚ :=
  if byteSum records = 0 then 0 else weightedSum k records / byteSum records

@[simp] theorem tokenSum_zero {α : Type} : tokenSum (0 : Multiset (Metrics α)) = 0 := rfl

@[simp] theorem byteSum_zero {α : Type} : byteSum (0 : Multiset (Metrics α)) = 0 := rfl

@[simp] theorem weightedSum_zero (k : Metric) : weightedSum k 0 = 0 := rfl

@[simp] theorem tokenSum_add {α : Type} (R S : Multiset (Metrics α)) :
    tokenSum (R + S) = tokenSum R + tokenSum S := by
  simp [tokenSum]

@[simp] theorem byteSum_add {α : Type} (R S : Multiset (Metrics α)) :
    byteSum (R + S) = byteSum R + byteSum S := by
  simp [byteSum]

@[simp] theorem weightedSum_add (k : Metric) (R S : Multiset (Metrics ℚ)) :
    weightedSum k (R + S) = weightedSum k R + weightedSum k S := by
  simp [weightedSum]

/-- Records without bytes have no weight, whatever their values are. -/
theorem weightedSum_eq_zero {k : Metric} {records : Multiset (Metrics ℚ)}
    (h : byteSum records = 0) : weightedSum k records = 0 := by
  rw [byteSum, Multiset.sum_eq_zero_iff] at h
  rw [weightedSum]
  apply Multiset.sum_eq_zero
  intro x hx
  obtain ⟨m, hm, rfl⟩ := Multiset.mem_map.mp hx
  rw [h _ (Multiset.mem_map_of_mem _ hm), Nat.cast_zero, mul_zero]

/-- A mean carries the weight of what it is the mean of. -/
theorem byteMean_mul_byteSum (k : Metric) (records : Multiset (Metrics ℚ)) :
    byteMean k records * byteSum records = weightedSum k records := by
  rw [byteMean]
  split
  · rename_i h
    rw [weightedSum_eq_zero h, zero_mul]
  · rename_i h
    exact div_mul_cancel₀ _ (Nat.cast_ne_zero.mpr h)

theorem weightedSum_of_forall_eq {k : Metric} {c : ℚ} {records : Multiset (Metrics ℚ)}
    (h : ∀ m ∈ records, m.totalBytes ≠ 0 → m.value k = c) :
    weightedSum k records = c * byteSum records := by
  induction records using Multiset.induction_on with
  | empty => rw [weightedSum_zero, byteSum_zero, Nat.cast_zero, mul_zero]
  | cons m records ih =>
      have hone : m.value k * (m.totalBytes.toNat : ℚ) = c * m.totalBytes.toNat := by
        by_cases hzero : m.totalBytes = 0
        · rw [hzero, UInt64.toNat_zero, Nat.cast_zero, mul_zero, mul_zero]
        · rw [h m (Multiset.mem_cons_self m records) hzero]
      have hrest := ih fun m' hm' => h m' (Multiset.mem_cons_of_mem hm')
      simp only [weightedSum, byteSum, Multiset.map_cons, Multiset.sum_cons] at hrest ⊢
      rw [hone, hrest, Nat.cast_add, mul_add]

/-- The mean of records that agree in a value, where they have bytes, is this value. -/
theorem byteMean_of_forall_eq {k : Metric} {c : ℚ} {records : Multiset (Metrics ℚ)}
    (h : ∀ m ∈ records, m.totalBytes ≠ 0 → m.value k = c) (hbytes : byteSum records ≠ 0) :
    byteMean k records = c := by
  rw [byteMean, if_neg hbytes, weightedSum_of_forall_eq h,
    mul_div_cancel_right₀ _ (Nat.cast_ne_zero.mpr hbytes)]

/-! ### One merge -/

/-- The record has the totals of some records. -/
structure Sums {α : Type} (m : Metrics α) (records : Multiset (Metrics α)) : Prop where
  tokens : m.totalTokens.toNat = tokenSum records
  bytes : m.totalBytes.toNat = byteSum records

/-- The record has the totals of some records, and their weight in each metric. -/
structure Carries (m : Metrics ℚ) (records : Multiset (Metrics ℚ)) : Prop extends
    m.Sums records where
  weight : ∀ k, m.value k * m.totalBytes.toNat = weightedSum k records

/-- The record has the totals of some records, and is their mean in each metric. -/
structure IsMeanOf (m : Metrics ℚ) (records : Multiset (Metrics ℚ)) : Prop extends
    m.Sums records where
  mean : ∀ k, m.value k = byteMean k records

theorem sums_self {α : Type} (m : Metrics α) : m.Sums {m} := by
  constructor <;> simp [tokenSum, byteSum]

theorem carries_self (m : Metrics ℚ) : m.Carries {m} :=
  ⟨m.sums_self, fun k => by simp [weightedSum]⟩

theorem zero_sums {α : Type} [Scalar α] : Sums (zero : Metrics α) 0 :=
  ⟨rfl, rfl⟩

theorem zero_isMeanOf : IsMeanOf zero 0 :=
  ⟨zero_sums, fun k => by cases k <;> rfl⟩

theorem IsMeanOf.carries {m : Metrics ℚ} {records : Multiset (Metrics ℚ)}
    (h : m.IsMeanOf records) : m.Carries records where
  toSums := h.toSums
  weight k := by rw [h.mean k, h.bytes, byteMean_mul_byteSum]

theorem IsMeanOf.unique {m m' : Metrics ℚ} {records : Multiset (Metrics ℚ)}
    (h : m.IsMeanOf records) (h' : m'.IsMeanOf records) : m = m' := by
  refine ext_value (fun k => ?_) ?_ ?_
  · rw [h.mean k, h'.mean k]
  · rw [← UInt64.toNat_inj, h.tokens, h'.tokens]
  · rw [← UInt64.toNat_inj, h.bytes, h'.bytes]

section Merge

variable {α : Type} [Scalar α] {a b c : Metrics α}

@[simp] theorem average_totalTokens (a b : Metrics α) (tokens bytes : UInt64) :
    (a.average b tokens bytes).totalTokens = tokens := by
  rw [average]
  split <;> rfl

@[simp] theorem average_totalBytes (a b : Metrics α) (tokens bytes : UInt64) :
    (a.average b tokens bytes).totalBytes = bytes := by
  rw [average]
  split <;> rfl

/-- A merge has the exact totals of its parts, and their averages. -/
theorem merge?_eq_some_iff : a.merge? b = some c ↔
    a.totalTokens.toNat + b.totalTokens.toNat = c.totalTokens.toNat ∧
    a.totalBytes.toNat + b.totalBytes.toNat = c.totalBytes.toNat ∧
    c = a.average b c.totalTokens c.totalBytes := by
  simp only [merge?, Option.bind_eq_bind, Option.bind_eq_some_iff, Total.add?_eq_some_iff,
    Option.pure_def, Option.some.injEq]
  constructor
  · rintro ⟨bytes, hbytes, tokens, htokens, rfl⟩
    simp only [average_totalTokens, average_totalBytes]
    exact ⟨htokens, hbytes, trivial⟩
  · rintro ⟨htokens, hbytes, hc⟩
    exact ⟨_, hbytes, _, htokens, hc.symm⟩

/-- Two records are merged just if their totals fit. -/
theorem exists_merge?_iff : (∃ c, a.merge? b = some c) ↔
    a.totalTokens.toNat + b.totalTokens.toNat < 2 ^ 64 ∧
    a.totalBytes.toNat + b.totalBytes.toNat < 2 ^ 64 := by
  constructor
  · rintro ⟨c, hc⟩
    obtain ⟨htokens, hbytes, -⟩ := merge?_eq_some_iff.mp hc
    rw [htokens, hbytes]
    exact ⟨c.totalTokens.toNat_lt, c.totalBytes.toNat_lt⟩
  · rintro ⟨htokens, hbytes⟩
    obtain ⟨tokens, htokens⟩ := Total.exists_add? htokens
    obtain ⟨bytes, hbytes⟩ := Total.exists_add? hbytes
    exact ⟨_, by rw [merge?, hbytes, htokens]; rfl⟩

theorem Sums.merge {R S : Multiset (Metrics α)} (ha : a.Sums R) (hb : b.Sums S)
    (h : a.merge? b = some c) : c.Sums (R + S) := by
  obtain ⟨htokens, hbytes, -⟩ := merge?_eq_some_iff.mp h
  constructor
  · rw [← htokens, ha.tokens, hb.tokens, tokenSum_add]
  · rw [← hbytes, ha.bytes, hb.bytes, byteSum_add]

theorem Sums.exists_merge?_iff {R S : Multiset (Metrics α)} (ha : a.Sums R) (hb : b.Sums S) :
    (∃ c, a.merge? b = some c) ↔ tokenSum (R + S) < 2 ^ 64 ∧ byteSum (R + S) < 2 ^ 64 := by
  rw [Metrics.exists_merge?_iff, ha.tokens, hb.tokens, ha.bytes, hb.bytes, tokenSum_add,
    byteSum_add]

end Merge

theorem value_average (a b : Metrics ℚ) (tokens bytes : UInt64) (k : Metric) :
    (a.average b tokens bytes).value k = if bytes = 0 then 0
      else (a.value k * (a.totalBytes.toNat : ℚ) + b.value k * (b.totalBytes.toNat : ℚ))
        / (bytes.toNat : ℚ) := by
  rw [average]
  split <;> cases k <;> rfl

/-- **A merge is the mean of what its parts carry.** -/
theorem Carries.merge {a b c : Metrics ℚ} {R S : Multiset (Metrics ℚ)} (ha : a.Carries R)
    (hb : b.Carries S) (h : a.merge? b = some c) : c.IsMeanOf (R + S) := by
  have hsums := ha.toSums.merge hb.toSums h
  refine ⟨hsums, fun k => ?_⟩
  -- the merge resets exactly where the mean does
  have hzero : c.totalBytes = 0 ↔ byteSum (R + S) = 0 := by
    rw [← UInt64.toNat_inj, hsums.bytes]
    rfl
  rw [(merge?_eq_some_iff.mp h).2.2, value_average, byteMean, ha.weight, hb.weight, hsums.bytes,
    weightedSum_add]
  exact if_congr hzero rfl rfl

/-- How records that are merged may stand to the records behind them: `P` is kept by a merge,
and `Q` is enough of what is merged in. -/
structure Merging {α : Type} [Scalar α] (P Q : Metrics α → Multiset (Metrics α) → Prop) :
    Prop where
  zero : P .zero 0
  self : ∀ m, Q m {m}
  weaken : ∀ {m R}, P m R → Q m R
  sums : ∀ {m R}, Q m R → m.Sums R
  merge : ∀ {a b c R S}, P a R → Q b S → a.merge? b = some c → P c (R + S)

theorem merging_sums {α : Type} [Scalar α] : Merging (α := α) Sums Sums where
  zero := zero_sums
  self := sums_self
  weaken := id
  sums := id
  merge := Sums.merge

theorem merging_isMeanOf : Merging IsMeanOf Carries where
  zero := zero_isMeanOf
  self := carries_self
  weaken := IsMeanOf.carries
  sums := Carries.toSums
  merge ha := ha.carries.merge

/-! ### Records merged one after another -/

section MergeAll

variable {α : Type} [Scalar α] {P Q : Metrics α → Multiset (Metrics α) → Prop}

theorem mergeAll?_concat (records : List (Metrics α)) (m : Metrics α) :
    mergeAll? (records ++ [m]) = (mergeAll? records).bind (·.merge? m) := by
  simp [mergeAll?, List.foldlM_append]

/-- **Records merged one after another** stand for all of them. -/
theorem Merging.of_mergeAll? (hPQ : Merging P Q) {records : List (Metrics α)} {m : Metrics α}
    (h : mergeAll? records = some m) : P m records := by
  induction records using List.reverseRecOn generalizing m with
  | nil =>
      obtain rfl : .zero = m := Option.some.inj h
      exact hPQ.zero
  | append_singleton records last ih =>
      rw [mergeAll?_concat, Option.bind_eq_some_iff] at h
      obtain ⟨m₀, hm₀, hmerge⟩ := h
      exact hPQ.merge (ih hm₀) (hPQ.self last) hmerge

theorem exists_mergeAll?_iff {records : List (Metrics α)} :
    (∃ m, mergeAll? records = some m) ↔
      tokenSum (records : Multiset (Metrics α)) < 2 ^ 64 ∧
      byteSum (records : Multiset (Metrics α)) < 2 ^ 64 := by
  constructor
  · rintro ⟨m, hm⟩
    have hsums := merging_sums.of_mergeAll? hm
    exact ⟨hsums.tokens ▸ m.totalTokens.toNat_lt, hsums.bytes ▸ m.totalBytes.toNat_lt⟩
  · induction records using List.reverseRecOn with
    | nil => exact fun _ => ⟨zero, rfl⟩
    | append_singleton records last ih =>
        rintro ⟨htokens, hbytes⟩
        rw [← Multiset.coe_add, Multiset.coe_singleton] at htokens hbytes
        have htokens' := tokenSum_add (records : Multiset (Metrics α)) {last}
        have hbytes' := byteSum_add (records : Multiset (Metrics α)) {last}
        obtain ⟨m, hm⟩ := ih ⟨by omega, by omega⟩
        obtain ⟨merged, hmerged⟩ := ((merging_sums.of_mergeAll? hm).exists_merge?_iff
          last.sums_self).mpr ⟨htokens, hbytes⟩
        exact ⟨merged, by rw [mergeAll?_concat, hm]; exact hmerged⟩

end MergeAll

end Metrics

/-! ### Records of several languages -/

/-- The records of one language. -/
def ofLanguage {α : Type} (lang : Language) (records : Multiset (Language × Metrics α)) :
    Multiset (Metrics α) :=
  (records.filter (·.1 = lang)).map Prod.snd

/-- Whether the totals of all records fit the words of a record. -/
structure Fits {α : Type} (records : Multiset (Language × Metrics α)) : Prop where
  tokens : Metrics.tokenSum (records.map Prod.snd) < 2 ^ 64
  bytes : Metrics.byteSum (records.map Prod.snd) < 2 ^ 64

section Records

variable {α : Type} {R S : Multiset (Language × Metrics α)}

@[simp] theorem ofLanguage_zero (lang : Language) :
    ofLanguage lang (0 : Multiset (Language × Metrics α)) = 0 := rfl

@[simp] theorem ofLanguage_add (lang : Language) (R S : Multiset (Language × Metrics α)) :
    ofLanguage lang (R + S) = ofLanguage lang R + ofLanguage lang S := by
  simp [ofLanguage]

@[simp] theorem ofLanguage_map (lang other : Language) (Q : Multiset (Metrics α)) :
    ofLanguage other (Q.map (Prod.mk lang)) = if other = lang then Q else 0 := by
  rw [ofLanguage, Multiset.filter_map]
  split
  · rename_i h
    rw [Multiset.filter_eq_self.mpr (by simp [h])]
    simp
  · rename_i h
    rw [Multiset.filter_eq_nil.mpr (by simp [Ne.symm h])]
    rfl

/-- The records of all languages together are all records. -/
theorem sum_ofLanguage (R : Multiset (Language × Metrics α)) :
    (Language.all.map fun lang => (ofLanguage lang R).map (Prod.mk lang)).sum = R := by
  induction R using Multiset.induction_on with
  | empty => simp [Language.all]
  | cons r R ih =>
      have hcons : ∀ lang, (ofLanguage lang (r ::ₘ R)).map (Prod.mk lang)
          = (if r.1 = lang then {r} else 0) + (ofLanguage lang R).map (Prod.mk lang) := by
        intro lang
        obtain ⟨lang', m⟩ := r
        by_cases h : lang' = lang <;> simp [ofLanguage, h]
      -- the new record shows up in its own language and in no other
      have hone : (Language.all.map fun lang => if r.1 = lang then {r} else 0).sum
          = ({r} : Multiset (Language × Metrics α)) := by
        obtain ⟨lang', m⟩ := r
        cases lang' <;> simp [Language.all]
      simp only [hcons]
      rw [List.sum_map_add, hone, ih, Multiset.singleton_add]

theorem tokenSum_eq_sum (R : Multiset (Language × Metrics α)) :
    Metrics.tokenSum (R.map Prod.snd)
      = (Language.all.map fun lang => Metrics.tokenSum (ofLanguage lang R)).sum := by
  conv_lhs => rw [← sum_ofLanguage R]
  simp [Language.all]

theorem byteSum_eq_sum (R : Multiset (Language × Metrics α)) :
    Metrics.byteSum (R.map Prod.snd)
      = (Language.all.map fun lang => Metrics.byteSum (ofLanguage lang R)).sum := by
  conv_lhs => rw [← sum_ofLanguage R]
  simp [Language.all]

theorem Fits.of_le (h : Fits S) (hle : R ≤ S) : Fits R := by
  obtain ⟨Q, rfl⟩ := Multiset.le_iff_exists_add.mp hle
  obtain ⟨htokens, hbytes⟩ := h
  rw [Multiset.map_add, Metrics.tokenSum_add] at htokens
  rw [Multiset.map_add, Metrics.byteSum_add] at hbytes
  exact ⟨by omega, by omega⟩

/-- The records of a language fit if all records do. -/
theorem Fits.ofLanguage (h : Fits R) (lang : Language) :
    Metrics.tokenSum (ofLanguage lang R) < 2 ^ 64 ∧
    Metrics.byteSum (ofLanguage lang R) < 2 ^ 64 := by
  obtain ⟨htokens, hbytes⟩ := h.of_le (Multiset.filter_le (·.1 = lang) R)
  exact ⟨htokens, hbytes⟩

end Records

namespace CorpusScore

section General

variable {α : Type} {P Q : Metrics α → Multiset (Metrics α) → Prop} {s s' : CorpusScore α}
  {s? : Option (CorpusScore α)} {R : Multiset (Language × Metrics α)}

/-! ### Scores of records -/

/-- For each language the score has a record that stands for the records in it, and its own
totals are those of all records. -/
structure Gathers (P : Metrics α → Multiset (Metrics α) → Prop) (s : CorpusScore α)
    (records : Multiset (Language × Metrics α)) : Prop where
  entry : ∀ lang, ∃ m, s.get? lang = some m ∧ P m (ofLanguage lang records)
  tokens : s.totalTokens.toNat = Metrics.tokenSum (records.map Prod.snd)
  bytes : s.totalBytes.toNat = Metrics.byteSum (records.map Prod.snd)

theorem Gathers.exists_get? (h : s.Gathers P R) (lang : Language) :
    ∃ m, s.get? lang = some m := by
  obtain ⟨m, hm, -⟩ := h.entry lang
  exact ⟨m, hm⟩

/-- What a score gathers fits, as its totals are words. -/
theorem Gathers.fits (h : s.Gathers P R) : Fits R where
  tokens := h.tokens ▸ s.totalTokens.toNat_lt
  bytes := h.bytes ▸ s.totalBytes.toNat_lt

/-- What aggregating some records leads to: a score that gathers them all, or none if their
totals do not fit. -/
inductive Yields (P : Metrics α → Multiset (Metrics α) → Prop)
    (records : Multiset (Language × Metrics α)) : Option (CorpusScore α) → Prop where
  | score {s : CorpusScore α} (h : s.Gathers P records) : Yields P records (some s)
  | stop (h : ¬ Fits records) : Yields P records none

theorem Yields.gathers (h : Yields P R (some s)) : s.Gathers P R := by
  cases h with
  | score h => exact h

/-- Records whose totals fit have a score. -/
theorem Yields.exists_eq_some (h : Yields P R s?) (hfits : Fits R) :
    ∃ s, s? = some s ∧ s.Gathers P R := by
  cases h with
  | score h => exact ⟨_, rfl, h⟩
  | stop h => exact absurd hfits h

theorem Yields.isSome_iff (h : Yields P R s?) : s?.isSome ↔ Fits R := by
  cases h with
  | score h => exact iff_of_true rfl h.fits
  | stop h => exact iff_of_false (by simp) h

/-- Nothing is made up for after a stop. -/
theorem Yields.stop_of_le {T : Multiset (Language × Metrics α)} (h : ¬ Fits R) (hle : R ≤ T) :
    Yields P T none :=
  .stop fun hfits => h (hfits.of_le hle)

variable [Scalar α] {lang : Language} {m : Metrics α} {S : Multiset (Metrics α)}

/-! ### One record -/

@[simp] theorem get?_new (lang : Language) : (new : CorpusScore α).get? lang = some .zero :=
  PerLanguage.get_const ..

/-- Adding a record merges it into that of its language, and adds the exact totals. -/
theorem add?_eq_some_iff : s.add? lang m = some s' ↔
    ∃ merged, ((s.get? lang).getD .zero).merge? m = some merged ∧
      s.totalTokens.toNat + m.totalTokens.toNat = s'.totalTokens.toNat ∧
      s.totalBytes.toNat + m.totalBytes.toNat = s'.totalBytes.toNat ∧
      s'.metrics = s.metrics.set lang (some merged) := by
  simp only [add?, Option.bind_eq_bind, Option.bind_eq_some_iff, Total.add?_eq_some_iff,
    Option.pure_def, Option.some.injEq]
  constructor
  · rintro ⟨merged, hmerged, tokens, htokens, bytes, hbytes, rfl⟩
    exact ⟨merged, hmerged, htokens, hbytes, rfl⟩
  · obtain ⟨metrics, tokens, bytes⟩ := s'
    rintro ⟨merged, hmerged, htokens, hbytes, rfl⟩
    exact ⟨merged, hmerged, tokens, htokens, bytes, hbytes, rfl⟩

theorem get?_add (h : s.add? lang m = some s') (other : Language) :
    s'.get? other
      = if other = lang then ((s.get? lang).getD .zero).merge? m else s.get? other := by
  obtain ⟨merged, hmerged, -, -, hmetrics⟩ := add?_eq_some_iff.mp h
  rw [get?, hmetrics, PerLanguage.get_set, hmerged]
  rfl

theorem gathers_new (hPQ : Metrics.Merging P Q) : (new : CorpusScore α).Gathers P 0 where
  entry lang := ⟨.zero, get?_new lang, hPQ.zero⟩
  tokens := rfl
  bytes := rfl

/-- **Adding a record adds what it stands for.** -/
theorem Gathers.add (hPQ : Metrics.Merging P Q) (h : s.Gathers P R) (hm : Q m S)
    (hadd : s.add? lang m = some s') : s'.Gathers P (R + S.map (Prod.mk lang)) := by
  obtain ⟨merged, hmerged, htokens, hbytes, -⟩ := add?_eq_some_iff.mp hadd
  refine ⟨fun other => ?_, ?_, ?_⟩
  · obtain ⟨m₀, hm₀, hentry⟩ := h.entry other
    rw [get?_add hadd, ofLanguage_add, ofLanguage_map]
    by_cases hother : other = lang
    · subst hother
      rw [hm₀, Option.getD_some] at hmerged
      rw [if_pos rfl, if_pos rfl, hm₀, Option.getD_some]
      exact ⟨merged, hmerged, hPQ.merge hentry hm hmerged⟩
    · rw [if_neg hother, if_neg hother, add_zero]
      exact ⟨m₀, hm₀, hentry⟩
  · rw [← htokens, h.tokens, (hPQ.sums hm).tokens, Multiset.map_add, Metrics.tokenSum_add,
      Multiset.map_map]
    simp
  · rw [← hbytes, h.bytes, (hPQ.sums hm).bytes, Multiset.map_add, Metrics.byteSum_add,
      Multiset.map_map]
    simp

/-- A record that fits is added. -/
theorem Gathers.exists_add (hPQ : Metrics.Merging P Q) (h : s.Gathers P R) (hm : Q m S)
    (hfits : Fits (R + S.map (Prod.mk lang))) : ∃ s', s.add? lang m = some s' := by
  have hsums := hPQ.sums hm
  obtain ⟨m₀, hm₀, hentry⟩ := h.entry lang
  have hlang := hfits.ofLanguage lang
  rw [ofLanguage_add, ofLanguage_map, if_pos rfl] at hlang
  obtain ⟨merged, hmerged⟩ :=
    ((hPQ.sums (hPQ.weaken hentry)).exists_merge?_iff hsums).mpr hlang
  obtain ⟨htokens, hbytes⟩ := hfits
  rw [Multiset.map_add, Multiset.map_map] at htokens hbytes
  obtain ⟨tokens, htokens⟩ : ∃ tokens, Total.add? s.totalTokens m.totalTokens = some tokens := by
    apply Total.exists_add?
    rw [h.tokens, hsums.tokens]
    simpa using htokens
  obtain ⟨bytes, hbytes⟩ : ∃ bytes, Total.add? s.totalBytes m.totalBytes = some bytes := by
    apply Total.exists_add?
    rw [h.bytes, hsums.bytes]
    simpa using hbytes
  exact ⟨_, by rw [add?, hm₀, Option.getD_some, hmerged, htokens, hbytes]; rfl⟩

theorem Gathers.yields_add (hPQ : Metrics.Merging P Q) (h : s.Gathers P R) (hm : Q m S)
    (lang : Language) : Yields P (R + S.map (Prod.mk lang)) (s.add? lang m) := by
  rcases hadd : s.add? lang m with - | s'
  · refine .stop fun hfits => ?_
    obtain ⟨s', hs'⟩ := h.exists_add hPQ hm hfits
    rw [hadd] at hs'
    cases hs'
  · exact .score (h.add hPQ hm hadd)

/-! ### Some records -/

/-- Adding one record after another. -/
theorem Gathers.yields_addAll {ι : Type} (hPQ : Metrics.Merging P Q) (h : s.Gathers P R)
    (row : ι → Language × Metrics α) {behind : ι → Multiset (Metrics α)}
    (hrow : ∀ i, Q (row i).2 (behind i)) (is : List ι) :
    Yields P (R + (is.map fun i => (behind i).map (Prod.mk (row i).1)).sum)
      (s.addAll? (is.map row)) := by
  induction is generalizing s R with
  | nil => simpa [addAll?] using Yields.score h
  | cons i is ih =>
      rw [List.map_cons, List.sum_cons, ← add_assoc, List.map_cons, addAll?, List.foldlM_cons]
      have hstep := h.yields_add hPQ (hrow i) (row i).1
      generalize s.add? (row i).1 (row i).2 = added at hstep
      cases hstep with
      | score hadded => exact ih hadded
      | stop hadded => exact .stop_of_le hadded (Multiset.le_add_right ..)

/-- **Records that are added one by one** are all gathered, if their totals fit. -/
theorem Gathers.yields_rows (hPQ : Metrics.Merging P Q) (h : s.Gathers P R)
    (rows : List (Language × Metrics α)) :
    Yields P (R + (rows : Multiset (Language × Metrics α))) (s.addAll? rows) := by
  have hsum : (rows.map fun row => ({row.2} : Multiset (Metrics α)).map (Prod.mk row.1)).sum
      = (rows : Multiset (Language × Metrics α)) := by
    rw [← Multiset.sum_coe, ← Multiset.map_coe]
    exact Multiset.sum_map_singleton _
  have hyields := h.yields_addAll hPQ id (fun row => hPQ.self row.2) rows
  rw [List.map_id] at hyields
  rw [← hsum]
  exact hyields

theorem new_yields_rows (hPQ : Metrics.Merging P Q) (rows : List (Language × Metrics α)) :
    Yields P (rows : Multiset (Language × Metrics α)) (new.addAll? rows) := by
  rw [← zero_add (rows : Multiset (Language × Metrics α))]
  exact (gathers_new hPQ).yields_rows hPQ rows

/-! ### Absorbing a score -/

theorem entries_eq_map (h : ∀ lang, ∃ m, s.get? lang = some m) :
    s.entries = Language.all.map fun lang => (lang, (s.get? lang).getD .zero) := by
  rw [entries, ← List.filterMap_eq_map]
  refine List.filterMap_congr fun lang _ => ?_
  obtain ⟨m, hm⟩ := h lang
  simp [hm]

/-- **Absorbing a score adds all records behind it**, although only one record for
each language is merged. -/
theorem Gathers.yields_absorb (hPQ : Metrics.Merging P Q) (h : s.Gathers P R)
    {other : CorpusScore α} {T : Multiset (Language × Metrics α)} (h' : other.Gathers P T) :
    Yields P (R + T) (s.absorb? other) := by
  have hrow : ∀ lang, Q ((other.get? lang).getD .zero) (ofLanguage lang T) := by
    intro lang
    obtain ⟨m, hm, hentry⟩ := h'.entry lang
    rw [hm]
    exact hPQ.weaken hentry
  have hyields := h.yields_addAll hPQ (fun lang => (lang, (other.get? lang).getD .zero)) hrow
    Language.all
  rw [sum_ofLanguage T] at hyields
  rw [absorb?, entries_eq_map h'.exists_get?]
  exact hyields

/-! ### The record of one language -/

/-- Its record of a language has the records in it, merged in order, whatever numbers the
averages are. -/
theorem get?_addAll {rows : List (Language × Metrics α)} (h : s.addAll? rows = some s')
    (hm : s.get? lang = some m) :
    s'.get? lang = ((rows.filter (·.1 = lang)).map Prod.snd).foldlM Metrics.merge? m := by
  induction rows generalizing s m with
  | nil =>
      obtain rfl : s = s' := Option.some.inj h
      exact hm
  | cons row rows ih =>
      rw [addAll?, List.foldlM_cons, Option.bind_eq_bind, Option.bind_eq_some_iff] at h
      obtain ⟨s₁, hadd, hrest⟩ := h
      have hget := get?_add hadd lang
      by_cases hlang : lang = row.1
      · rw [if_pos hlang, ← hlang, hm, Option.getD_some] at hget
        obtain ⟨merged, hmerged, -⟩ := add?_eq_some_iff.mp hadd
        rw [← hlang, hm, Option.getD_some] at hmerged
        rw [List.filter_cons_of_pos (by simp [hlang]), List.map_cons, List.foldlM_cons, hmerged]
        exact ih hrest (hget.trans hmerged)
      · rw [if_neg hlang] at hget
        rw [List.filter_cons_of_neg (by simp [Ne.symm hlang])]
        exact ih hrest (hget.trans hm)

/-! ### The totals of the entries -/

theorem Gathers.tokens_eq_sum (hPQ : Metrics.Merging P Q) (h : s.Gathers P R) :
    s.totalTokens.toNat = (s.entries.map fun entry => entry.2.totalTokens.toNat).sum := by
  rw [h.tokens, tokenSum_eq_sum, entries_eq_map h.exists_get?, List.map_map]
  refine congrArg List.sum (List.map_congr_left fun lang _ => ?_)
  obtain ⟨m, hm, hentry⟩ := h.entry lang
  simp [hm, (hPQ.sums (hPQ.weaken hentry)).tokens]

theorem Gathers.bytes_eq_sum (hPQ : Metrics.Merging P Q) (h : s.Gathers P R) :
    s.totalBytes.toNat = (s.entries.map fun entry => entry.2.totalBytes.toNat).sum := by
  rw [h.bytes, byteSum_eq_sum, entries_eq_map h.exists_get?, List.map_map]
  refine congrArg List.sum (List.map_congr_left fun lang _ => ?_)
  obtain ⟨m, hm, hentry⟩ := h.entry lang
  simp [hm, (hPQ.sums (hPQ.weaken hentry)).bytes]

end General

/-! ### Exact arithmetic -/

/-- The score has the totals of some records, and for each language the mean of the
records in it. -/
abbrev Represents (s : CorpusScore ℚ) (records : Multiset (Language × Metrics ℚ)) : Prop :=
  s.Gathers Metrics.IsMeanOf records

/-- There is one score with given records. -/
theorem Represents.unique {s s' : CorpusScore ℚ} {records : Multiset (Language × Metrics ℚ)}
    (h : s.Represents records) (h' : s'.Represents records) : s = s' := by
  obtain ⟨metrics, tokens, bytes⟩ := s
  obtain ⟨metrics', tokens', bytes'⟩ := s'
  have hmetrics : metrics = metrics' := by
    refine PerLanguage.ext_get fun lang => ?_
    obtain ⟨m, hm, hmean⟩ := h.entry lang
    obtain ⟨m', hm', hmean'⟩ := h'.entry lang
    have hget : metrics.get lang = some m := hm
    have hget' : metrics'.get lang = some m' := hm'
    rw [hget, hget', hmean.unique hmean']
  have htokens : tokens = tokens' := by
    rw [← UInt64.toNat_inj]
    exact h.tokens.trans h'.tokens.symm
  have hbytes : bytes = bytes' := by
    rw [← UInt64.toNat_inj]
    exact h.bytes.trans h'.bytes.symm
  rw [hmetrics, htokens, hbytes]

/-- Aggregating the same records leads to the same. -/
theorem Yields.unique {s? s?' : Option (CorpusScore ℚ)}
    {records : Multiset (Language × Metrics ℚ)} (h : Yields Metrics.IsMeanOf records s?)
    (h' : Yields Metrics.IsMeanOf records s?') : s? = s?' := by
  cases h with
  | score h =>
      cases h' with
      | score h' => rw [Represents.unique h h']
      | stop h' => exact absurd h.fits h'
  | stop h =>
      cases h' with
      | score h' => exact absurd h'.fits h
      | stop h' => rfl

end CorpusScore

/-! ### All ways to aggregate -/

/-- A way to aggregate records: scores that start empty, get records one at a time,
and absorb each other. -/
inductive Accumulation (α : Type) where
  | new
  | add (acc : Accumulation α) (lang : Language) (m : Metrics α)
  | absorb (acc other : Accumulation α)

namespace Accumulation

/-- The score that it leads to, if all totals on the way fit. -/
def score? {α : Type} [Scalar α] : Accumulation α → Option (CorpusScore α)
  | new => some .new
  | add acc lang m => do (← acc.score?).add? lang m
  | absorb acc other => do (← acc.score?).absorb? (← other.score?)

/-- The records that went in. -/
def records {α : Type} : Accumulation α → Multiset (Language × Metrics α)
  | new => 0
  | add acc lang m => acc.records + {(lang, m)}
  | absorb acc other => acc.records + other.records

/-- **An accumulation leads to a score of its records**, whatever numbers the averages are. -/
theorem yields_score {α : Type} [Scalar α] {P Q : Metrics α → Multiset (Metrics α) → Prop}
    (hPQ : Metrics.Merging P Q) (acc : Accumulation α) :
    CorpusScore.Yields P acc.records acc.score? := by
  induction acc with
  | new => exact .score (CorpusScore.gathers_new hPQ)
  | add acc lang m ih =>
      rw [records, score?]
      generalize acc.score? = s? at ih
      cases ih with
      | score hs => exact hs.yields_add hPQ (hPQ.self m) lang
      | stop hs => exact .stop_of_le hs (Multiset.le_add_right ..)
  | absorb acc other ih ih' =>
      rw [records, score?]
      generalize acc.score? = s? at ih
      generalize other.score? = s?' at ih'
      cases ih with
      | stop hs => exact .stop_of_le hs (Multiset.le_add_right ..)
      | score hs =>
          cases ih' with
          | stop hs' => exact .stop_of_le hs' (Multiset.le_add_left ..)
          | score hs' => exact hs.yields_absorb hPQ hs'

/-- Nothing but totals that do not fit stands in the way of a score. -/
theorem isSome_score?_iff {α : Type} [Scalar α] (acc : Accumulation α) :
    acc.score?.isSome ↔ Fits acc.records :=
  (acc.yields_score Metrics.merging_sums).isSome_iff

/-- **Aggregation is the byte-weighted mean.**  However records are added to scores
and scores absorbed by others, if the totals fit there is a score at the end: it has for each
language the totals of the records in it and their mean by bytes in every metric, zero without
bytes; its own totals are those of all records, which are those of its entries.  So it is the
same for every order and every grouping of the same records. -/
theorem score_eq_mean (acc : Accumulation ℚ) (h : Fits acc.records) :
    ∃ s, acc.score? = some s ∧
    (∀ lang, ∃ m, s.get? lang = some m ∧
      m.totalTokens.toNat = Metrics.tokenSum (ofLanguage lang acc.records) ∧
      m.totalBytes.toNat = Metrics.byteSum (ofLanguage lang acc.records) ∧
      ∀ k, m.value k = Metrics.byteMean k (ofLanguage lang acc.records)) ∧
    (s.totalTokens.toNat = Metrics.tokenSum (acc.records.map Prod.snd) ∧
      s.totalBytes.toNat = Metrics.byteSum (acc.records.map Prod.snd)) ∧
    (s.totalTokens.toNat = (s.entries.map fun entry => entry.2.totalTokens.toNat).sum ∧
      s.totalBytes.toNat = (s.entries.map fun entry => entry.2.totalBytes.toNat).sum) ∧
    ∀ other : Accumulation ℚ, other.records = acc.records → other.score? = some s := by
  have hyields := acc.yields_score Metrics.merging_isMeanOf
  obtain ⟨s, hs, hgathers⟩ := hyields.exists_eq_some h
  refine ⟨s, hs, fun lang => ?_, ⟨hgathers.tokens, hgathers.bytes⟩,
    ⟨hgathers.tokens_eq_sum Metrics.merging_isMeanOf,
      hgathers.bytes_eq_sum Metrics.merging_isMeanOf⟩, ?_⟩
  · obtain ⟨m, hm, hmean⟩ := hgathers.entry lang
    exact ⟨m, hm, hmean.tokens, hmean.bytes, hmean.mean⟩
  · intro other hrecords
    rw [← hs]
    exact (hrecords ▸ other.yields_score Metrics.merging_isMeanOf).unique hyields

/-- Two scores with records of one language, one of them without bytes, where the
second score went through a third one that had nothing to add. -/
def nested : Accumulation ℚ :=
  .absorb (.add (.add .new .go ⟨4, 0, 0, 0, 0, 1, 4⟩) .go ⟨9, 9, 9, 9, 9, 3, 0⟩)
    (.absorb .new (.add .new .go ⟨1, 0, 0, 0, 0, 2, 2⟩))

theorem score_nested : Fits nested.records ∧ ∃ s m, nested.score? = some s ∧
    s.get? .go = some m ∧ m.totalTokens.toNat = 6 ∧ m.totalBytes.toNat = 6 ∧
    m.value .compression = 3 := by
  have hfits : Fits nested.records := ⟨by decide, by decide⟩
  obtain ⟨s, hs, hentries, -⟩ := score_eq_mean nested hfits
  obtain ⟨m, hm, htokens, hbytes, hmean⟩ := hentries .go
  refine ⟨hfits, s, m, hs, hm, htokens.trans (by decide), hbytes.trans (by decide), ?_⟩
  rw [hmean]
  decide +kernel

end Accumulation

end TokenAlignment
