import PathTracer.Proofs.Binary32.Exact
import PathTracer.Proofs.Expression.Lowering
import PathTracer.Proofs.Expression.Padding
import PathTracer.Proofs.Scene.Building

/-! Animated options. Their value depends on the order of the times of their keys, and of the
texts only on those around the time that is read. -/
namespace PathTracer

open Binary32 (value)

/-! ### Options by name -/

namespace Options

theorem lookup_insertEntry (key name : String) (v : OptionValue)
    (entries : List (String × OptionValue)) :
    (insertEntry key v entries).lookup name =
      if name = key then some v else entries.lookup name := by
  induction entries with
  | nil =>
      rw [insertEntry, List.lookup_cons]
      grind
  | cons entry rest ih =>
      rw [insertEntry]
      grind

/-- An option that is set is found under its name, in any case of letters, and no other one
changes. -/
theorem get?_set (o : Options) (option name : String) (v : OptionValue) :
    (o.set option v).get? name =
      if Text.lower name = Text.lower option then some v else o.get? name :=
  lookup_insertEntry _ _ v o.entries

/-- Animations that have one value have it wherever they are set. -/
theorem value_set_congr {keys others : List Keyframe} {name : String} {time : Float32}
    (h : animatedValue name time keys = animatedValue name time others) (o : Options)
    (option : String) :
    (o.set option (.animated keys)).value name time =
      (o.set option (.animated others)).value name time := by
  unfold value
  rw [get?_set, get?_set]
  by_cases hName : Text.lower name = Text.lower option
  · rw [if_pos hName, if_pos hName]
    exact congrArg (Except.map some) h
  · rw [if_neg hName, if_neg hName]

end Options

/-- A key has the time that it is given, unless a NaN is given: that is kept as another one. -/
theorem Keyframe.time_mk (x : Float32) (source : String) : (⟨x, source⟩ : Keyframe).time = x :=
  Binary32.ofBits_toBits x

/-- The total order is that of the numbers where they are finite. -/
theorem Keyframe.rank_lt_of_lt {a b : Keyframe} (ha : a.time.isFinite = true)
    (hb : b.time.isFinite = true) (h : a.time < b.time) : a.rank < b.rank := by
  have hOrder := Binary32.totalKey_lt_of_lt ha hb h
  rwa [time, time, Moment.toFloat, Moment.toFloat, Binary32.toBits_ofBits_of_isFinite ha,
    Binary32.toBits_ofBits_of_isFinite hb] at hOrder

namespace Animation

variable {keys others : List Keyframe} {time : Float32}

/-! ### The order of keys -/

/-- Keys with times that the total order tells apart. NaNs may be among them, as long as
they differ in sign or payload, and both zeros. -/
def Apart (keys : List Keyframe) : Prop :=
  keys.Pairwise fun a b => a.rank ≠ b.rank

/-- Keys that are apart are told by the places of their times. -/
theorem Apart.inj (h : Apart keys) {a b : Keyframe} (ha : a ∈ keys) (hb : b ∈ keys)
    (hSame : a.rank = b.rank) : a = b := by
  have hNodup : (keys.map Keyframe.rank).Nodup := List.pairwise_map.mpr h
  exact List.inj_on_of_nodup_map hNodup ha hb hSame

/-- Sorted keys are in the order of their places. -/
theorem pairwise_sorted (keys : List Keyframe) :
    (sorted keys).Pairwise fun a b => a.rank ≤ b.rank := by
  refine (List.pairwise_mergeSort ?_ ?_ keys).imp of_decide_eq_true
  · intro a b c hFirst hSecond
    simp only [decide_eq_true_eq] at *
    omega
  · intro a b
    simp only [Bool.or_eq_true, decide_eq_true_eq]
    omega

theorem sorted_perm (keys : List Keyframe) : (sorted keys).Perm keys :=
  List.mergeSort_perm keys _

/-- Keys that are told apart have one order. -/
theorem Apart.sorted_eq (h : Apart keys) (hPerm : others.Perm keys) :
    sorted others = sorted keys := by
  refine List.Perm.eq_of_pairwise ?_ (pairwise_sorted others) (pairwise_sorted keys)
    ((sorted_perm others).trans (hPerm.trans (sorted_perm keys).symm))
  intro a b ha hb hLess hMore
  refine h.inj (hPerm.mem_iff.mp ((sorted_perm others).mem_iff.mp ha))
    ((sorted_perm keys).mem_iff.mp hb) ?_
  exact Int.le_antisymm hLess hMore

/-! ### Keys that are not read -/

variable {f : Keyframe → Keyframe}

/-- Changing texts of keys does not change their order. -/
theorem sorted_map (hMoment : ∀ k, (f k).moment = k.moment) :
    sorted (keys.map f) = (sorted keys).map f := by
  have hRank (k : Keyframe) : (f k).rank = k.rank :=
    congrArg (fun m : Moment => Binary32.totalKey m.bits) (hMoment k)
  refine (List.map_mergeSort fun a _ b _ => ?_).symm
  rw [hRank, hRank]

theorem enclosing?_map (hTime : ∀ k, (f k).time = k.time) (keys : List Keyframe) :
    enclosing? time (keys.map f) = (enclosing? time keys).map fun p => (f p.1, f p.2) := by
  induction keys with
  | nil => rfl
  | cons a rest ih =>
      cases rest with
      | nil => rfl
      | cons b rest =>
          simp only [List.map_cons, enclosing?, hTime] at ih ⊢
          split
          · rfl
          · exact ih

/-- The two keys around a time are neighbours in the order, and enclose it. -/
theorem enclosing?_eq_some {a b : Keyframe} (h : enclosing? time keys = some (a, b)) :
    [a, b] <:+: keys ∧ a.time ≤ time ∧ time ≤ b.time := by
  induction keys with
  | nil => cases h
  | cons c rest ih =>
      cases rest with
      | nil => cases h
      | cons d rest =>
          rw [enclosing?] at h
          split at h
          · rename_i hTime
            cases h
            exact ⟨⟨[], rest, rfl⟩, hTime⟩
          · exact ⟨(ih h).1.trans (List.suffix_cons c _).isInfix, (ih h).2⟩

/-- A change of texts that keeps the first and the last key and all pairs of neighbours around
a time keeps the value at that time. -/
theorem animatedValue_map (name : String) (hMoment : ∀ k, (f k).moment = k.moment)
    (hFirst : ∀ k ∈ (sorted keys).head?, f k = k) (hLast : ∀ k ∈ (sorted keys).getLast?, f k = k)
    (hPairs : ∀ a b, [a, b] <:+: sorted keys → a.time ≤ time → time ≤ b.time →
      f a = a ∧ f b = b) :
    Options.animatedValue name time (keys.map f) = Options.animatedValue name time keys := by
  have hTime (k : Keyframe) : (f k).time = k.time := congrArg Moment.toFloat (hMoment k)
  unfold Options.animatedValue
  simp only [sorted_map hMoment, List.head?_map, List.getLast?_map, enclosing?_map hTime]
  cases hHead : (sorted keys).head? with
  | none => rfl
  | some first =>
      cases hEnd : (sorted keys).getLast? with
      | none => rfl
      | some last =>
          simp only [Option.map_some, hFirst first hHead, hLast last hEnd]
          cases hEnclosing : enclosing? time (sorted keys) with
          | none => rfl
          | some pair =>
              obtain ⟨hInfix, hFrom, hTo⟩ := enclosing?_eq_some hEnclosing
              obtain ⟨hBefore, hAfter⟩ := hPairs pair.1 pair.2 hInfix hFrom hTo
              simp only [Option.map_some, hBefore, hAfter]

end Animation

/-- The value of an animated option does not depend on the order in which its keys are
written, and not on the text of a key that is neither the first nor the last and not next to
the time that is read. Keys are apart if the total order of their bits tells them apart, as
it does with zeros of both signs and with what is no number. The text of a key that is not
needed need not even be an expression. -/
theorem Options.value_of_apart {keys : List Keyframe} (hApart : Animation.Apart keys)
    (o : Options) (option name : String) (time : Float32) :
    (∀ others : List Keyframe, others.Perm keys →
      (o.set option (.animated others)).value name time =
        (o.set option (.animated keys)).value name time) ∧
    (∀ before k after source, keys = before ++ k :: after →
      (Animation.sorted keys).head? ≠ some k → (Animation.sorted keys).getLast? ≠ some k →
      (∀ a b, [a, b] <:+: Animation.sorted keys → a.time ≤ time → time ≤ b.time →
        a ≠ k ∧ b ≠ k) →
      (o.set option (.animated (before ++ { k with source } :: after))).value name time =
        (o.set option (.animated keys)).value name time) := by
  constructor
  · intro others hPerm
    refine value_set_congr ?_ o option
    unfold animatedValue
    rw [hApart.sorted_eq hPerm]
  · intro before k after source hKeys hFirst hLast hPairs
    have hReplaced : before ++ { k with source } :: after =
        keys.map fun a => if a = k then { k with source } else a := by
      have hSplit := hApart
      rw [hKeys, Animation.Apart, List.pairwise_append, List.pairwise_cons] at hSplit
      obtain ⟨_, ⟨hAfter, _⟩, hBefore⟩ := hSplit
      have hKeep {part : List Keyframe} (hOther : ∀ a ∈ part, a ≠ k) :
          part.map (fun a => if a = k then { k with source } else a) = part :=
        (List.map_congr_left fun a ha => if_neg (hOther a ha)).trans (List.map_id part)
      rw [hKeys, List.map_append, List.map_cons, if_pos rfl, hKeep, hKeep]
      · rintro a ha rfl
        exact hAfter a ha rfl
      · rintro a ha rfl
        exact hBefore a ha a List.mem_cons_self rfl
    refine value_set_congr ?_ o option
    rw [hReplaced]
    refine Animation.animatedValue_map name ?_ ?_ ?_ ?_
    · intro a
      split
      · rename_i hSame
        rw [hSame]
      · rfl
    · intro a hHead
      refine if_neg ?_
      rintro rfl
      exact hFirst hHead
    · intro a hEnd
      refine if_neg ?_
      rintro rfl
      exact hLast hEnd
    · intro a b hInfix hFrom hTo
      have hOther := hPairs a b hInfix hFrom hTo
      exact ⟨if_neg hOther.1, if_neg hOther.2⟩

/-- Five keys in order: a negative NaN, three numbers and a positive NaN. -/
def Animation.five : List Keyframe :=
  [⟨⟨0xffc00000⟩, "1"⟩, ⟨0.0, "2"⟩, ⟨1.0, "3"⟩, ⟨2.0, "4"⟩, ⟨⟨0x7fc00000⟩, "5"⟩]

/-- Between the second and the third of five keys the fourth one may be no expression at
all. The keys whose times are NaNs stand first and last, by their signs. -/
theorem Options.value_of_apart_five :
    Animation.Apart Animation.five ∧
      (empty.set "radius" (.animated Animation.five.reverse)).value "Radius" 0.5 =
        (empty.set "radius" (.animated Animation.five)).value "Radius" 0.5 ∧
      (empty.set "radius" (.animated [⟨⟨0xffc00000⟩, "1"⟩, ⟨0.0, "2"⟩, ⟨1.0, "3"⟩, ⟨2.0, "(("⟩,
          ⟨⟨0x7fc00000⟩, "5"⟩])).value "Radius" 0.5 =
        (empty.set "radius" (.animated Animation.five)).value "Radius" 0.5 := by
  have hApart : Animation.Apart Animation.five := by
    unfold Animation.Apart
    decide
  have hSorted : Animation.sorted Animation.five = Animation.five :=
    List.mergeSort_of_pairwise (by decide)
  obtain ⟨hOrder, hText⟩ := value_of_apart hApart empty "radius" "Radius" 0.5
  refine ⟨hApart, hOrder _ (List.reverse_perm _), ?_⟩
  refine hText [⟨⟨0xffc00000⟩, "1"⟩, ⟨0.0, "2"⟩, ⟨1.0, "3"⟩] ⟨2.0, "4"⟩ [⟨⟨0x7fc00000⟩, "5"⟩] "(("
    rfl ?_ ?_ ?_
  · rw [hSorted]
    decide
  · rw [hSorted]
    decide
  · intro a b hInfix hFrom hTo
    rw [hSorted] at hInfix
    simp only [Animation.five, List.infix_cons_iff, List.cons_prefix_cons, List.nil_prefix,
      List.infix_nil, List.prefix_nil, reduceCtorEq, or_false, and_true, and_false] at hInfix
    rcases hInfix with ⟨rfl, rfl⟩ | ⟨rfl, rfl⟩ | ⟨rfl, rfl⟩ | ⟨rfl, rfl⟩
    · exact absurd hFrom (by decide)
    · exact ⟨by decide, by decide⟩
    · exact absurd hFrom (by decide)
    · exact absurd hFrom (by decide)

namespace Animation

variable {keys : List Keyframe}

/-! ### Values at keys -/

/-- Keys whose times are finite and different. -/
structure Timed (keys : List Keyframe) : Prop where
  isFinite : ∀ k ∈ keys, k.time.isFinite = true
  differ : keys.Pairwise fun a b => (a.time == b.time) = false

/-- Times that are finite and different ascend, as numbers, in the order of their bits. -/
theorem Timed.ascending (h : Timed keys) : (sorted keys).Pairwise fun a b => a.time < b.time := by
  have hFinite (k : Keyframe) (hk : k ∈ sorted keys) :=
    h.isFinite k ((sorted_perm keys).mem_iff.mp hk)
  have hSymm {a b : Keyframe} (hDiffer : (a.time == b.time) = false) :
      (b.time == a.time) = false := by
    rw [← Bool.not_eq_true, Binary32.beq_iff_place] at *
    grind
  have hDiffer := (sorted_perm keys).symm.pairwise h.differ hSymm
  refine ((pairwise_sorted keys).and hDiffer).imp_of_mem ?_
  intro a b ha hb ⟨hKeys, hOther⟩
  have hFrom := hFinite a ha
  have hTo := hFinite b hb
  rw [Binary32.value_lt_iff hFrom hTo]
  refine lt_of_le_of_ne (not_lt.mp fun hLess => ?_) fun hSame => ?_
  · have hBack := Keyframe.rank_lt_of_lt hTo hFrom ((Binary32.value_lt_iff hTo hFrom).mpr hLess)
    omega
  · rw [(Binary32.value_eq_iff hFrom hTo).mpr hSame] at hOther
    cases hOther

/-- The key directly before another. -/
def Precedes (keys : List Keyframe) (p k : Keyframe) : Prop :=
  p ∈ keys ∧ p.time < k.time ∧ ∀ a ∈ keys, ¬(p.time < a.time ∧ a.time < k.time)

/-- The neighbours around the time of a key are the key before it and the key itself. The
pair before the key comes first in the search, and it encloses the time with its end. -/
theorem enclosing?_at_key {p k : Keyframe} (hk : k.time.isFinite = true) {after : List Keyframe} :
    ∀ before : List Keyframe,
      (before ++ p :: k :: after).Pairwise (fun a b => a.time < b.time) →
      enclosing? k.time (before ++ p :: k :: after) = some (p, k)
  | [], h => by
      have hLess : p.time < k.time := (List.pairwise_cons.mp h).1 k List.mem_cons_self
      have hSelf := Binary32.le_self (Binary32.isNaN_of_isFinite hk)
      exact if_pos ⟨Binary32.le_of_lt hLess, hSelf⟩
  | [a], h => by
      have hRest := (List.pairwise_cons.mp h).2
      have hLess : p.time < k.time := (List.pairwise_cons.mp hRest).1 k (by simp)
      rw [List.singleton_append, enclosing?,
        if_neg fun hBoth => Binary32.not_le_of_lt hLess hBoth.2]
      exact enclosing?_at_key hk [] hRest
  | a :: b :: before, h => by
      have hRest := (List.pairwise_cons.mp h).2
      have hLess : b.time < k.time := (List.pairwise_cons.mp hRest).1 k (by simp)
      rw [List.cons_append, List.cons_append, enclosing?,
        if_neg fun hBoth => Binary32.not_le_of_lt hLess hBoth.2]
      exact enclosing?_at_key hk (b :: before) hRest

section Split

variable (h : Timed keys) {k p : Keyframe} {before after : List Keyframe}

include h

theorem Timed.le_self {k : Keyframe} (hk : k ∈ sorted keys) : k.time ≤ k.time :=
  Binary32.le_self (Binary32.isNaN_of_isFinite (h.isFinite k ((sorted_perm keys).mem_iff.mp hk)))

theorem Timed.not_precedes (hSplit : sorted keys = k :: after) (q : Keyframe) :
    ¬Precedes keys q k := by
  have hAscending := h.ascending
  rw [hSplit] at hAscending
  rintro ⟨hq, hLess, -⟩
  rw [← (sorted_perm keys).mem_iff, hSplit] at hq
  rcases List.mem_cons.mp hq with rfl | hq
  · exact Binary32.lt_irrefl _ hLess
  · exact Binary32.lt_irrefl _ (Binary32.lt_trans hLess ((List.pairwise_cons.mp hAscending).1 q hq))

/-- Only one key is directly before another. -/
theorem Timed.precedes_iff (hSplit : sorted keys = before ++ p :: k :: after) (q : Keyframe) :
    Precedes keys q k ↔ q = p := by
  have hAscending := h.ascending
  have hMem (a : Keyframe) : a ∈ keys ↔ a ∈ before ∨ a = p ∨ a = k ∨ a ∈ after := by
    rw [← (sorted_perm keys).mem_iff, hSplit]
    simp
  rw [hSplit] at hAscending
  obtain ⟨-, hEarlier, hLater⟩ := List.pairwise_append.mp hAscending
  obtain ⟨hLess, hRest⟩ := List.pairwise_cons.mp hEarlier
  have hMore := (List.pairwise_cons.mp hRest).1
  have hPrevious : p.time < k.time := hLess k List.mem_cons_self
  have hOrder (a : Keyframe) (ha : a ∈ keys) (hBelow : a.time < k.time) : a ∈ before ∨ a = p := by
    rcases (hMem a).mp ha with hIn | hSame | rfl | hIn
    · exact .inl hIn
    · exact .inr hSame
    · exact absurd hBelow (Binary32.lt_irrefl _)
    · exact absurd (Binary32.lt_trans hBelow (hMore a hIn)) (Binary32.lt_irrefl _)
  constructor
  · rintro ⟨hq, hBelow, hNone⟩
    refine (hOrder q hq hBelow).resolve_left fun hIn => ?_
    exact hNone p ((hMem p).mpr (by simp)) ⟨hLater q hIn p (by simp), hPrevious⟩
  · rintro rfl
    refine ⟨(hMem q).mpr (by simp), hPrevious, ?_⟩
    rintro a ha ⟨hAbove, hBelow⟩
    rcases hOrder a ha hBelow with hIn | rfl
    · exact Binary32.lt_irrefl _ (Binary32.lt_trans hAbove (hLater a hIn q (by simp)))
    · exact Binary32.lt_irrefl _ hAbove

/-- At its time the first key has its own value. -/
theorem Timed.animatedValue_first (hSplit : sorted keys = k :: after) (name : String) :
    Options.animatedValue name k.time keys = Options.evalSource name k.source := by
  have hSelf := h.le_self (k := k) (by simp [hSplit])
  unfold Options.animatedValue
  rw [hSplit]
  exact if_pos hSelf

theorem Timed.exists_head (hSplit : sorted keys = before ++ p :: k :: after) :
    ∃ first, (before ++ p :: k :: after).head? = some first ∧ ¬k.time ≤ first.time := by
  have hAscending := h.ascending
  rw [hSplit] at hAscending
  cases before with
  | nil => exact ⟨p, rfl, Binary32.not_le_of_lt ((List.pairwise_cons.mp hAscending).1 k (by simp))⟩
  | cons a before =>
      exact ⟨a, rfl, Binary32.not_le_of_lt ((List.pairwise_cons.mp hAscending).1 k (by simp))⟩

theorem Timed.not_lt_last (hSplit : sorted keys = before ++ [k]) {a : Keyframe} (ha : a ∈ keys) :
    ¬k.time < a.time := by
  have hAscending := h.ascending
  rw [hSplit] at hAscending
  have hBefore := (List.pairwise_append.mp hAscending).2.2
  intro hAfter
  rw [← (sorted_perm keys).mem_iff, hSplit, List.mem_append, List.mem_singleton] at ha
  rcases ha with hIn | rfl
  · exact Binary32.lt_irrefl _ (Binary32.lt_trans hAfter (hBefore a hIn k (by simp)))
  · exact Binary32.lt_irrefl _ hAfter

theorem Timed.lt_last {last : Keyframe}
    (hSplit : sorted keys = before ++ p :: k :: (after ++ [last])) :
    last ∈ keys ∧ k.time < last.time := by
  have hAscending := h.ascending
  rw [hSplit] at hAscending
  have hRest := (List.pairwise_cons.mp (List.pairwise_append.mp hAscending).2.1).2
  exact ⟨(sorted_perm keys).mem_iff.mp (by simp [hSplit]),
    (List.pairwise_cons.mp hRest).1 last (by simp)⟩

theorem Timed.animatedValue_last (hSplit : sorted keys = before ++ [p, k]) (name : String) :
    Options.animatedValue name k.time keys = Options.evalSource name k.source := by
  have hSelf := h.le_self (k := k) (by simp [hSplit])
  obtain ⟨first, hHead, hFirst⟩ := h.exists_head hSplit
  have hLast : (before ++ [p, k]).getLast? = some k := by simp
  unfold Options.animatedValue
  rw [hSplit]
  simp only [hHead, hLast]
  rw [if_neg hFirst, if_pos hSelf]

/-- At the time of any other key the value is a mixture with the key before it. -/
theorem Timed.animatedValue_between {last : Keyframe}
    (hSplit : sorted keys = before ++ p :: k :: (after ++ [last])) (name : String) :
    Options.animatedValue name k.time keys = Options.valueBetween name k.time p k := by
  have hAscending := h.ascending
  rw [hSplit] at hAscending
  obtain ⟨first, hHead, hFirst⟩ := h.exists_head hSplit
  have hLast : (before ++ p :: k :: (after ++ [last])).getLast? = some last := by
    simp [List.getLast?_cons]
  have hEnd := (h.lt_last hSplit).2
  have hFinite : k.time.isFinite = true :=
    h.isFinite k ((sorted_perm keys).mem_iff.mp (by simp [hSplit]))
  unfold Options.animatedValue
  rw [hSplit]
  simp only [hHead, hLast]
  rw [if_neg hFirst, if_neg (Binary32.not_le_of_lt hEnd), enclosing?_at_key hFinite before hAscending]

end Split

/-- A key is the first one, the last one, or between two others. -/
theorem cases_of_mem {k : Keyframe} (hk : k ∈ keys) :
    (∃ after, sorted keys = k :: after) ∨ (∃ before p, sorted keys = before ++ [p, k]) ∨
      ∃ before p after last, sorted keys = before ++ p :: k :: (after ++ [last]) := by
  obtain ⟨before, after, hSplit⟩ := List.append_of_mem ((sorted_perm keys).mem_iff.mpr hk)
  rcases List.eq_nil_or_concat before with rfl | ⟨before, p, rfl⟩
  · exact .inl ⟨after, hSplit⟩
  · rw [List.concat_append] at hSplit
    rcases List.eq_nil_or_concat after with rfl | ⟨after, last, rfl⟩
    · exact .inr (.inl ⟨before, p, hSplit⟩)
    · rw [List.concat_eq_append] at hSplit
      exact .inr (.inr ⟨before, p, after, last, hSplit⟩)

end Animation

/-! ### Mixtures -/

namespace Value

/-- Whether the way from one value to another, taken as a whole, ends exactly there. -/
def Arrives (u v : Value) : Prop :=
  List.Forall₂ (fun x y => x + (y - x) = y) u.components v.components

/-- Combining two lists gives the second exactly if it does in each place. -/
theorem zipWith_eq_right_iff {α β : Type} {f : α → β → β} {xs : List α} :
    ∀ {ys : List β}, xs.length = ys.length →
      (List.zipWith f xs ys = ys ↔ List.Forall₂ (fun x y => f x y = y) xs ys) := by
  induction xs with
  | nil =>
      intro ys hLength
      cases ys with
      | nil => simp
      | cons y ys => cases hLength
  | cons x xs ih =>
      intro ys hLength
      cases ys with
      | nil => cases hLength
      | cons y ys =>
          rw [List.zipWith_cons_cons, List.cons.injEq, List.forall₂_cons,
            ih (Nat.succ.inj hLength)]

/-- A blend is its second end exactly if it is in each component. -/
theorem lerp_eq_right_iff {u v : Value} (hType : u.type = v.type) (hv : v.Padded) (t : Float32) :
    u.lerp v t = v ↔
      List.Forall₂ (fun x y => x + (y - x) * t = y) u.components v.components := by
  have hSame : (u.lerp v t).type = v.type := (type_ofFn _ _).trans hType
  have hComponents : (u.lerp v t).components =
      List.zipWith (fun x y => x + (y - x) * t) u.components v.components := by
    rw [lerp, components_zip, lanesAs_type, hType, lanesAs_type]
  have hLength : u.components.length = v.components.length := by
    rw [length_components, length_components, hType]
  rw [← zipWith_eq_right_iff hLength, ← hComponents]
  exact ⟨fun h => congrArg components h, fun h => (padded_ofFn _ _).ext hv hSame h⟩

end Value

open Binary32 in
/-- Between the times of two keys the later one is reached, unless they are too far apart.
Then the difference of the times overflows, and the quotient of two infinities is no number.
-/
theorem Animation.progress_at_key {start stop : Float32} (hStart : start.isFinite = true)
    (hStop : stop.isFinite = true) (hLess : start < stop) :
    ((stop - start).isFinite = true → progress stop start stop = 1.0) ∧
      ((stop - start).isFinite = false → (progress stop start stop).isNaN = true) := by
  have hPos := sub_pos hStop hStart hLess
  have hProgress : progress stop start stop = (stop - start) / (stop - start) := if_pos hPos
  rw [hProgress]
  refine ⟨fun hFinite => div_self_eq hFinite ?_, isNaN_div_self⟩
  rw [value_lt_iff (by rfl) hFinite] at hPos
  have hZero : value 0.0 = 0 := valueOf_zero .positive
  rw [hZero] at hPos
  exact hPos.ne'

open Binary32 in
/-- At the later of two keys the blend is the later value exactly if the times are not too
far apart and the way between the values, as it is rounded, arrives there. -/
theorem Value.lerp_at_key {u v : Value} (hType : u.type = v.type) (hv : v.Padded)
    (hFinite : ∀ y ∈ v.components, y.isFinite = true) {start stop : Float32}
    (hStart : start.isFinite = true) (hStop : stop.isFinite = true) (hLess : start < stop) :
    u.lerp v (Animation.progress stop start stop) = v ↔
      (stop - start).isFinite = true ∧ u.Arrives v := by
  obtain ⟨hOne, hNone⟩ := Animation.progress_at_key hStart hStop hLess
  rw [lerp_eq_right_iff hType hv, Arrives]
  cases hSpan : (stop - start).isFinite with
  | true =>
      rw [hOne hSpan]
      simp only [mul_one_eq, true_and]
  | false =>
      simp only [Bool.false_eq_true, false_and, iff_false]
      intro hAll
      have hSome : 0 < v.components.length := by
        rw [length_components]
        cases v.type <;> decide
      obtain ⟨y, ys, hList⟩ := List.exists_cons_of_length_pos hSome
      rw [hList] at hAll hFinite
      obtain ⟨x, xs, hFirst, -, -⟩ := List.forall₂_cons_right_iff.mp hAll
      have hNaN := isNaN_add (a := x) (.inr (isNaN_mul (a := y - x) (hNone hSpan)))
      rw [hFirst, isNaN_of_isFinite (hFinite y List.mem_cons_self)] at hNaN
      cases hNaN

/-! ### Animations at the times of their keys -/

/-- At the time of a key an animated option has a value of the type of its keys. It is the
value of the key exactly if the key is the last one, or if it is not too far from the key
before it and the way between the two values, as it is rounded, ends at the later one. Times
have to be finite and different, and values finite and of one type. -/
theorem Options.value_at_key_iff {o : Options} {name : String} {keys : List Keyframe}
    {type : ValueType} (hAnimated : o.get? name = some (.animated keys))
    (hTimed : Animation.Timed keys)
    (hValues : ∀ k ∈ keys, ∃ v, evalSource name k.source = .ok v ∧ v.type = type ∧
      ∀ x ∈ v.components, x.isFinite = true) {k : Keyframe} (hk : k ∈ keys) :
    ∃ v w, evalSource name k.source = .ok v ∧ o.value name k.time = .ok (some w) ∧
      w.type = type ∧
      (w = v ↔ (∀ a ∈ keys, ¬k.time < a.time) ∨
        ∀ p u, Animation.Precedes keys p k → evalSource name p.source = .ok u →
          (k.time - p.time).isFinite = true ∧ u.Arrives v) := by
  have hValue : o.value name k.time = (animatedValue name k.time keys).map some := by
    rw [value, hAnimated]
  obtain ⟨v, hSource, rfl, hFinite⟩ := hValues k hk
  refine ⟨v, ?_⟩
  rw [hValue]
  rcases Animation.cases_of_mem hk with ⟨after, hSplit⟩ | ⟨before, p, hSplit⟩ |
    ⟨before, p, after, last, hSplit⟩
  · refine ⟨v, hSource, ?_, rfl, iff_of_true rfl (.inr fun p _ hBefore _ => ?_)⟩
    · rw [hTimed.animatedValue_first hSplit, hSource]
      rfl
    · exact absurd hBefore (hTimed.not_precedes hSplit p)
  · refine ⟨v, hSource, ?_, rfl, iff_of_true rfl (.inl fun a => ?_)⟩
    · rw [hTimed.animatedValue_last hSplit, hSource]
      rfl
    · have hEnd : Animation.sorted keys = (before ++ [p]) ++ [k] := by simp [hSplit]
      exact hTimed.not_lt_last hEnd
  · obtain ⟨hLast, hMore⟩ := hTimed.lt_last hSplit
    have hBefore := (hTimed.precedes_iff hSplit p).mpr rfl
    obtain ⟨u, hEarlier, hType, -⟩ := hValues p hBefore.1
    refine ⟨u.lerp v (Animation.progress k.time p.time k.time), hSource, ?_, ?_, ?_⟩
    · rw [hTimed.animatedValue_between hSplit, valueBetween, hEarlier, hSource]
      simp only [hType, ne_eq, not_true_eq_false, if_false]
      rfl
    · exact (Value.type_ofFn _ _).trans hType
    · rw [Value.lerp_at_key hType (padded_of_evalSource hSource) hFinite
        (hTimed.isFinite p hBefore.1) (hTimed.isFinite k hk) hBefore.2.1]
      constructor
      · intro hArrives
        refine .inr fun q w hPrevious hValue => ?_
        obtain rfl := (hTimed.precedes_iff hSplit q).mp hPrevious
        obtain rfl := Except.ok.inj (hEarlier.symm.trans hValue)
        exact hArrives
      · rintro (hNone | hArrives)
        · exact absurd hMore (hNone last hLast)
        · exact hArrives p u hBefore hEarlier

/-- Whole numbers at whole times. -/
def Animation.rising : List Keyframe :=
  [⟨2.0, "5"⟩, ⟨0.0, "1"⟩, ⟨1.0, "2"⟩]

/-- The key in the middle of an animation is passed through. -/
theorem Options.value_at_key_iff_rising :
    Animation.Timed Animation.rising ∧
      (empty.set "radius" (.animated Animation.rising)).value "radius" 1.0 =
        .ok (some (.float1 2.0)) := by
  have hTimed : Animation.Timed Animation.rising := ⟨by decide, by decide⟩
  have hOne : evalSource "radius" "1" = .ok (.float1 1.0) :=
    evalSource_of_number _ (by decide +kernel)
  have hTwo : evalSource "radius" "2" = .ok (.float1 2.0) :=
    evalSource_of_number _ (by decide +kernel)
  have hFive : evalSource "radius" "5" = .ok (.float1 5.0) :=
    evalSource_of_number _ (by decide +kernel)
  have hAnimated : (empty.set "radius" (.animated Animation.rising)).get? "radius" =
      some (.animated Animation.rising) := by
    rw [get?_set, if_pos rfl]
  refine ⟨hTimed, ?_⟩
  have hValues : ∀ k ∈ Animation.rising, ∃ v, evalSource "radius" k.source = .ok v ∧
      v.type = .float1 ∧ ∀ x ∈ v.components, x.isFinite = true := by
    simp only [Animation.rising, List.forall_mem_cons]
    exact ⟨⟨_, hFive, rfl, by decide⟩, ⟨_, hOne, rfl, by decide⟩,
      ⟨_, hTwo, rfl, by decide⟩, by simp⟩
  obtain ⟨v, w, hSource, hValue, -, hIff⟩ :=
    value_at_key_iff hAnimated hTimed hValues (k := ⟨1.0, "2"⟩) (by decide)
  obtain rfl := Except.ok.inj (hTwo.symm.trans hSource)
  have hTime : (⟨1.0, "2"⟩ : Keyframe).time = 1.0 := Keyframe.time_mk 1.0 "2"
  rw [hTime] at hValue
  rw [hValue, hIff.mpr (.inr ?_)]
  rintro p u ⟨hp, hLess, -⟩ hEarlier
  simp only [Animation.rising, List.mem_cons, List.not_mem_nil, or_false] at hp
  rcases hp with rfl | rfl | rfl
  · exact absurd hLess (by decide)
  · obtain rfl := Except.ok.inj (hOne.symm.trans hEarlier)
    exact ⟨by decide, .cons (by decide) .nil⟩
  · exact absurd hLess (by decide)

/-- A small value after a great one. -/
def Animation.falling : List Keyframe :=
  [⟨0.0, "1e8"⟩, ⟨1.0, "1"⟩, ⟨2.0, "5"⟩]

/-- Beside the key before it the value of a key in the middle is lost. The difference is
rounded to that of the greater value alone, and adding it back gives zero. -/
theorem Options.value_at_key_falling :
    Animation.Timed Animation.falling ∧
      (∀ k ∈ Animation.falling, ∃ x, evalSource "radius" k.source = .ok (.float1 x) ∧
        x.isFinite = true) ∧
      ⟨1.0, "1"⟩ ∈ Animation.falling ∧ evalSource "radius" "1" = .ok (.float1 1.0) ∧
      (empty.set "radius" (.animated Animation.falling)).value "radius" 1.0 =
        .ok (some (.float1 0.0)) := by
  have hTimed : Animation.Timed Animation.falling := ⟨by decide, by decide⟩
  have hGreat : evalSource "radius" "1e8" = .ok (.float1 1e8) :=
    evalSource_of_number _ (by decide +kernel)
  have hOne : evalSource "radius" "1" = .ok (.float1 1.0) :=
    evalSource_of_number _ (by decide +kernel)
  have hFive : evalSource "radius" "5" = .ok (.float1 5.0) :=
    evalSource_of_number _ (by decide +kernel)
  refine ⟨hTimed, ?_, by decide, hOne, ?_⟩
  · simp only [Animation.falling, List.forall_mem_cons]
    exact ⟨⟨_, hGreat, by decide⟩, ⟨_, hOne, by decide⟩,
      ⟨_, hFive, by decide⟩, by simp⟩
  · have hSorted : Animation.sorted Animation.falling =
        [] ++ ⟨0.0, "1e8"⟩ :: ⟨1.0, "1"⟩ :: ([] ++ [⟨2.0, "5"⟩]) :=
      List.mergeSort_of_pairwise (by decide)
    have hMixed : (Value.float1 1e8).lerp (.float1 1.0) (Animation.progress 1.0 0.0 1.0) =
        .float1 0.0 := by decide
    have hStart : (⟨0.0, "1e8"⟩ : Keyframe).time = 0.0 := Keyframe.time_mk 0.0 "1e8"
    have hStop : (⟨1.0, "1"⟩ : Keyframe).time = 1.0 := Keyframe.time_mk 1.0 "1"
    have hBetween := hTimed.animatedValue_between hSorted "radius"
    rw [valueBetween, hStart, hStop] at hBetween
    rw [value, get?_set, if_pos rfl]
    dsimp only
    rw [hBetween, hGreat, hOne]
    dsimp only
    rw [hMixed]
    rfl

end PathTracer
