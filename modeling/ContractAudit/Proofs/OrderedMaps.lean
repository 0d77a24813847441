import Mathlib.Algebra.Order.Ring.Nat
import Mathlib.Data.List.Basic
import Mathlib.Data.List.Induction
import ContractAudit.Ordered

/-!
# Maps whose keys increase

* `Ordered.Increases l`: the keys of `l` increase.
* `Ordered.insert_of_forall_gt`: a key behind all others goes to the end.
* `Ordered.eq_of_perm`, `Ordered.eq_of_mem_iff`: what increases is determined by what is in it.
* `Ordered.increases_insert`, `Ordered.increases_ofList`: maps that are made have increasing keys.
* `Ordered.length_ofList_le`: a map has no more keys than the list that it is made from.
* `Ordered.forall_ofList`: the values of a map are those of the list that it is made from.
* `Ordered.ofList_of_increases`: a list with increasing keys is its own map.
* `Ordered.first? k l`: the first entry of `l` at the key `k`.
* `Ordered.first?_ofList`: a map has the first spelling of each key with its last value, and
  `Ordered.mem_ofList_iff`: it has the first entries of a list whose equal keys have equal values.
* `Ordered.ofList_perm`: a list with distinct keys loses nothing when it becomes a map.
* `Ordered.mem_tally_iff`, `Ordered.sum_tally`: a tally has each key with the number of times that
  it occurs.
* `Ordered.tally_congr`: the order in which keys are counted makes no difference.
-/

namespace ContractAudit.Ordered

open Std

variable {κ ν : Type} [Ord κ]

/-- the keys increase -/
def Increases (l : List (κ × ν)) : Prop := l.Pairwise fun x y => compare x.1 y.1 = .lt

theorem increases_cons {x : κ × ν} {l : List (κ × ν)} :
    Increases (x :: l) ↔ (∀ y ∈ l, compare x.1 y.1 = .lt) ∧ Increases l := List.pairwise_cons

theorem fst_ne_of_compare [ReflOrd κ] {x y : κ × ν} (h : compare x.1 y.1 = .lt) : x.1 ≠ y.1 := by
  intro heq
  have hself : compare y.1 y.1 = .eq := ReflCmp.compare_self
  rw [heq, hself] at h
  cases h

/-- what increases is determined by what is in it, without its order -/
theorem eq_of_perm [TransOrd κ] {α : Type} (key : α → κ) {l l' : List α}
    (hl : l.Pairwise fun x y => compare (key x) (key y) = .lt)
    (hl' : l'.Pairwise fun x y => compare (key x) (key y) = .lt) (h : l.Perm l') : l = l' := by
  refine h.eq_of_pairwise (fun x y _ _ hxy hyx => ?_) hl hl'
  exact absurd (TransCmp.lt_trans hxy hyx) (by simp)

/-- a map is determined by its entries -/
theorem eq_of_mem_iff [TransOrd κ] {l l' : List (κ × ν)} (hl : Increases l) (hl' : Increases l')
    (h : ∀ x, x ∈ l ↔ x ∈ l') : l = l' := by
  have hnodup {l : List (κ × ν)} (hl : Increases l) : l.Nodup :=
    hl.imp fun hxy heq => fst_ne_of_compare hxy (congrArg Prod.fst heq)
  exact eq_of_perm Prod.fst hl hl' ((List.perm_ext_iff_of_nodup (hnodup hl) (hnodup hl')).2 h)

/-- a key behind all others goes to the end -/
theorem insert_of_forall_gt {k : κ} {v : ν} {l : List (κ × ν)}
    (h : ∀ x ∈ l, compare k x.1 = .gt) : insert k v l = l ++ [(k, v)] := by
  induction l with
  | nil => rfl
  | cons x l ih =>
    have hx := h x List.mem_cons_self
    have ih := ih fun y hy => h y (List.mem_cons_of_mem x hy)
    simp only [insert, hx, ih, List.cons_append]

/-- the keys of a map with one more are the old ones and the new one -/
theorem mem_insert {k : κ} {v : ν} {l : List (κ × ν)} {x : κ × ν} (hx : x ∈ insert k v l) :
    x.1 = k ∨ x.1 ∈ l.map (·.1) := by
  induction l with
  | nil =>
    rw [insert, List.mem_singleton] at hx
    exact .inl (congrArg Prod.fst hx)
  | cons y l ih =>
    rw [insert] at hx
    rw [List.map_cons, List.mem_cons]
    split at hx
    · rcases List.mem_cons.1 hx with rfl | hx
      · exact .inl rfl
      · exact .inr (List.mem_cons.1 (List.mem_map_of_mem hx))
    · rcases List.mem_cons.1 hx with rfl | hx
      · exact .inr (.inl rfl)
      · exact .inr (.inr (List.mem_map_of_mem hx))
    · rcases List.mem_cons.1 hx with rfl | hx
      · exact .inr (.inl rfl)
      · exact (ih hx).imp_right .inr

theorem increases_insert [TransOrd κ] {k : κ} {v : ν} {l : List (κ × ν)} (hl : Increases l) :
    Increases (insert k v l) := by
  induction l with
  | nil => exact List.pairwise_singleton _ _
  | cons x l ih =>
    obtain ⟨hx, hl⟩ := increases_cons.1 hl
    rw [insert]
    split
    · rename_i hlt
      refine increases_cons.2 ⟨fun y hy => ?_, increases_cons.2 ⟨hx, hl⟩⟩
      rcases List.mem_cons.1 hy with rfl | hy
      · exact hlt
      · exact TransCmp.lt_trans hlt (hx y hy)
    · exact increases_cons.2 ⟨hx, hl⟩
    · rename_i hgt
      refine increases_cons.2 ⟨fun y hy => ?_, ih hl⟩
      rcases mem_insert hy with hk | hy
      · rw [hk]
        exact OrientedCmp.lt_of_gt hgt
      · obtain ⟨z, hz, hzy⟩ := List.mem_map.1 hy
        rw [← hzy]
        exact hx z hz

theorem increases_ofList [TransOrd κ] (l : List (κ × ν)) : Increases (ofList l) :=
  List.foldlRecOn l _ .nil fun _ hm _ _ => increases_insert hm

theorem length_insert_le (k : κ) (v : ν) (l : List (κ × ν)) :
    (insert k v l).length ≤ l.length + 1 := by
  induction l with
  | nil => exact Nat.le_refl _
  | cons x l ih =>
    rw [insert]
    split
    · exact Nat.le_refl _
    · exact Nat.le_succ _
    · exact Nat.succ_le_succ ih

/-- a map has no more keys than the list that it is made from -/
theorem length_ofList_le (l : List (κ × ν)) : (ofList l).length ≤ l.length := by
  have h : ∀ m : List (κ × ν),
      (l.foldl (fun m x => insert x.1 x.2 m) m).length ≤ m.length + l.length := by
    induction l with
    | nil => exact fun m => Nat.le_refl _
    | cons x l ih =>
      intro m
      have hinsert := length_insert_le x.1 x.2 m
      have hrest := ih (insert x.1 x.2 m)
      rw [List.foldl_cons, List.length_cons]
      omega
  exact (h []).trans_eq (Nat.zero_add _)

theorem forall_insert {P : ν → Prop} {k : κ} {v : ν} (hv : P v) {m : List (κ × ν)}
    (hm : ∀ x ∈ m, P x.2) : ∀ x ∈ insert k v m, P x.2 := by
  induction m with
  | nil => exact List.forall_mem_singleton.2 hv
  | cons y m ih =>
    obtain ⟨hy, hm⟩ := List.forall_mem_cons.1 hm
    rw [insert]
    split
    · exact List.forall_mem_cons.2 ⟨hv, List.forall_mem_cons.2 ⟨hy, hm⟩⟩
    · exact List.forall_mem_cons.2 ⟨hv, hm⟩
    · exact List.forall_mem_cons.2 ⟨hy, ih hm⟩

/-- what holds of all values of a list holds of those of its map -/
theorem forall_ofList {P : ν → Prop} {l : List (κ × ν)} (hl : ∀ x ∈ l, P x.2) :
    ∀ x ∈ ofList l, P x.2 :=
  List.foldlRecOn (motive := fun m : List (κ × ν) => ∀ x ∈ m, P x.2) l _ (List.forall_mem_nil _)
    fun _ hm y hy => forall_insert (hl y hy) hm

theorem ofList_of_increases [OrientedOrd κ] {l : List (κ × ν)} (hl : Increases l) :
    ofList l = l := by
  have h : ∀ m : List (κ × ν), Increases (m ++ l) →
      l.foldl (fun m x => insert x.1 x.2 m) m = m ++ l := by
    induction l with
    | nil => exact fun m _ => (List.append_nil m).symm
    | cons x l ih =>
      intro m hm
      have hgt : ∀ y ∈ m, compare x.1 y.1 = .gt := fun y hy =>
        OrientedCmp.gt_of_lt ((List.pairwise_append.1 hm).2.2 y hy x List.mem_cons_self)
      rw [List.foldl_cons, insert_of_forall_gt hgt,
        ih (increases_cons.1 hl).2 _ (by rwa [List.append_assoc]), List.append_assoc]
      rfl
  exact h [] hl

/-! ## entries by their keys -/

/-- the first entry at a key -/
def first? (k : κ) (l : List (κ × ν)) : Option (κ × ν) := l.find? fun x => compare k x.1 = .eq

section
variable {j k : κ} {v : ν} {x : κ × ν} {l m : List (κ × ν)}

theorem first?_cons : first? k (x :: l) = if compare k x.1 = .eq then some x else first? k l := by
  rw [first?, List.find?_cons]
  split <;> simp_all [first?]

theorem first?_eq_none (h : ∀ x ∈ l, compare k x.1 = .lt) : first? k l = none :=
  List.find?_eq_none.2 fun x hx => by simp [h x hx]

theorem mem_of_first? (h : first? k l = some x) : x ∈ l := List.mem_of_find?_eq_some h

theorem compare_of_first? (h : first? k l = some x) : compare k x.1 = .eq := by
  have hx := List.find?_some h
  exact of_decide_eq_true hx

/-- a key that has a first entry has a last one -/
theorem exists_first?_reverse (h : first? k l = some x) : ∃ y, first? k l.reverse = some y := by
  refine Option.isSome_iff_exists.1 (List.find?_isSome.2 ⟨x, ?_, ?_⟩)
  · exact List.mem_reverse.2 (mem_of_first? h)
  · exact decide_eq_true (compare_of_first? h)

theorem ofList_concat (l : List (κ × ν)) (x : κ × ν) :
    ofList (l ++ [x]) = insert x.1 x.2 (ofList l) := by
  rw [ofList, List.foldl_append]
  rfl

variable [TransOrd κ]

theorem first?_congr (h : compare j k = .eq) (l : List (κ × ν)) : first? j l = first? k l := by
  unfold first?
  simp only [TransCmp.congr_left h]

theorem first?_insert (hm : Increases m) : first? j (insert k v m) =
    if compare j k = .eq then some (((first? k m).map (·.1)).getD k, v) else first? j m := by
  induction m with
  | nil => rw [insert, first?_cons]; rfl
  | cons x m ih =>
    obtain ⟨hx, hm⟩ := increases_cons.1 hm
    rw [insert]
    split
    · rename_i hlt
      have hnone : first? k (x :: m) = none := first?_eq_none <| List.forall_mem_cons.2
        ⟨hlt, fun y hy => TransCmp.lt_trans hlt (hx y hy)⟩
      rw [first?_cons, hnone]
      rfl
    · rename_i heq
      have hsame : compare j k = compare j x.1 := TransCmp.congr_right heq
      rw [first?_cons, first?_cons, first?_cons, if_pos heq, hsame]
      split <;> rfl
    · rename_i hgt
      have hne : compare k x.1 ≠ .eq := by rw [hgt]; decide
      rw [first?_cons, first?_cons, first?_cons, ih hm, if_neg hne]
      by_cases hj : compare j x.1 = .eq
      · have hlast : compare j k ≠ .eq := by
          rw [TransCmp.congr_left hj, OrientedCmp.lt_of_gt hgt]
          decide
        rw [if_pos hj, if_neg hlast, if_pos hj]
      · rw [if_neg hj, if_neg hj]

/-- a map has the first spelling of each key and its last value -/
theorem first?_ofList (k : κ) (l : List (κ × ν)) : first? k (ofList l) =
    (first? k l).bind fun x => (first? k l.reverse).map fun y => (x.1, y.2) := by
  induction l using List.reverseRecOn with
  | nil => rfl
  | append_singleton l z ih =>
    have happend : first? k (l ++ [z]) = (first? k l).or (first? k [z]) := List.find?_append
    rw [ofList_concat, first?_insert (increases_ofList l), happend, List.reverse_concat, first?_cons,
      first?_cons]
    by_cases hz : compare k z.1 = .eq
    · rw [if_pos hz, if_pos hz, if_pos hz, first?_congr (OrientedCmp.eq_symm hz), ih]
      cases hl : first? k l with
      | none => rfl
      | some x =>
        obtain ⟨y, hy⟩ := exists_first?_reverse hl
        rw [hy]
        rfl
    · rw [if_neg hz, if_neg hz, if_neg hz, ih]
      cases first? k l <;> rfl

theorem mem_iff_first? (hl : Increases l) : x ∈ l ↔ first? x.1 l = some x := by
  refine ⟨fun hx => ?_, mem_of_first?⟩
  induction l with
  | nil => cases hx
  | cons y l ih =>
    obtain ⟨hy, hl⟩ := increases_cons.1 hl
    rw [first?_cons]
    rcases List.mem_cons.1 hx with rfl | hx
    · exact if_pos ReflCmp.compare_self
    · have hgt : compare x.1 y.1 = .gt := OrientedCmp.gt_of_lt (hy x hx)
      rw [if_neg (by rw [hgt]; decide), ih hl hx]

/-- where equal keys have equal values, the entries of a map are the first ones at their keys -/
theorem mem_ofList_iff (hl : ∀ x ∈ l, ∀ y ∈ l, compare x.1 y.1 = .eq → x.2 = y.2) :
    x ∈ ofList l ↔ first? x.1 l = some x := by
  rw [mem_iff_first? (increases_ofList l), first?_ofList]
  cases ha : first? x.1 l with
  | none => rfl
  | some a =>
    obtain ⟨b, hb⟩ := exists_first?_reverse ha
    have hkey : compare a.1 b.1 = .eq :=
      TransCmp.eq_trans (OrientedCmp.eq_symm (compare_of_first? ha)) (compare_of_first? hb)
    have hvalue := hl a (mem_of_first? ha) b (List.mem_reverse.1 (mem_of_first? hb)) hkey
    rw [hb, Option.bind_some, Option.map_some, ← hvalue]

end

/-! ## distinct keys -/

theorem insert_perm {k : κ} {v : ν} {l : List (κ × ν)} (h : ∀ x ∈ l, compare k x.1 ≠ .eq) :
    (insert k v l).Perm ((k, v) :: l) := by
  induction l with
  | nil => exact .refl _
  | cons x l ih =>
    obtain ⟨hx, hl⟩ := List.forall_mem_cons.1 h
    rw [insert]
    split
    · exact .refl _
    · exact absurd ‹_› hx
    · exact ((ih hl).cons x).trans (.swap (k, v) x l)

/-- a list with distinct keys loses nothing when it becomes a map -/
theorem ofList_perm [OrientedOrd κ] {l : List (κ × ν)}
    (hl : l.Pairwise fun x y => compare x.1 y.1 ≠ .eq) : (ofList l).Perm l := by
  have hsymm {x y : κ × ν} (h : compare x.1 y.1 ≠ .eq) : compare y.1 x.1 ≠ .eq :=
    mt OrientedCmp.eq_symm h
  have h : ∀ m : List (κ × ν), ((m ++ l).Pairwise fun x y => compare x.1 y.1 ≠ .eq) →
      (l.foldl (fun m x => insert x.1 x.2 m) m).Perm (m ++ l) := by
    induction l with
    | nil =>
      intro m _
      rw [List.append_nil]
      exact .refl m
    | cons x l ih =>
      intro m hm
      have hx : ∀ y ∈ m, compare x.1 y.1 ≠ .eq := fun y hy =>
        hsymm ((List.pairwise_append.1 hm).2.2 y hy x List.mem_cons_self)
      have hperm : (insert x.1 x.2 m ++ l).Perm (m ++ x :: l) :=
        ((insert_perm hx).append_right l).trans List.perm_middle.symm
      exact (ih (List.pairwise_cons.1 hl).2 _ ((hperm.pairwise_iff hsymm).2 hm)).trans hperm
  exact h [] hl

/-! ## tallies -/

/-- how often a key has been counted -/
def countOf (k : κ) : List (κ × Nat) → Nat
  | [] => 0
  | (k', n) :: l =>
    match compare k k' with
    | .lt => 0
    | .eq => n
    | .gt => countOf k l

theorem increment_eq_insert (k : κ) (m : List (κ × Nat)) :
    increment k m = insert k (countOf k m + 1) m := by
  induction m with
  | nil => rfl
  | cons x m ih =>
    rw [increment, insert, countOf]
    cases compare k x.1 with
    | gt => exact congrArg (x :: ·) ih
    | _ => rfl

/-- what holds of an empty tally and stays when a key is counted holds of every tally -/
theorem tally_induction {P : List (κ × Nat) → Prop} (hnil : P [])
    (hstep : ∀ k m, P m → P (increment k m)) (l : List κ) : P (tally l) :=
  List.foldlRecOn l _ hnil fun m hm k _ => hstep k m hm

theorem increases_tally [TransOrd κ] (l : List κ) : Increases (tally l) :=
  tally_induction .nil (fun k m hm => increment_eq_insert k m ▸ increases_insert hm) l

theorem pos_of_mem_tally {l : List κ} : ∀ x ∈ tally l, 0 < x.2 := by
  refine tally_induction (P := fun m => ∀ x ∈ m, 0 < x.2) (List.forall_mem_nil _) ?_ l
  intro k m hm
  rw [increment_eq_insert]
  exact forall_insert (P := fun n => 0 < n) (Nat.succ_pos _) hm

/-- every key as often as it has been counted -/
def spread (m : List (κ × Nat)) : List κ := m.flatMap fun x => List.replicate x.2 x.1

theorem spread_increment [LawfulEqOrd κ] (k : κ) (m : List (κ × Nat)) :
    (spread (increment k m)).Perm (k :: spread m) := by
  induction m with
  | nil => exact .refl _
  | cons x m ih =>
    obtain ⟨k', n⟩ := x
    rw [increment]
    split
    · exact .refl _
    · rename_i heq
      rw [LawfulEqOrd.eq_of_compare heq]
      exact .refl _
    · show (List.replicate n k' ++ spread (increment k m)).Perm
        (k :: (List.replicate n k' ++ spread m))
      exact (ih.append_left _).trans List.perm_middle

/-- a tally keeps every occurrence, only not where it was -/
theorem spread_tally [LawfulEqOrd κ] (l : List κ) : (spread (tally l)).Perm l := by
  have h : ∀ m, (spread (l.foldl (fun m k => increment k m) m)).Perm (l ++ spread m) := by
    induction l with
    | nil => exact fun m => .refl _
    | cons k l ih =>
      intro m
      exact (ih (increment k m)).trans
        (((spread_increment k m).append_left l).trans List.perm_middle)
  exact (h []).trans (.of_eq (List.append_nil l))

theorem sum_tally [LawfulEqOrd κ] (l : List κ) : ((tally l).map (·.2)).sum = l.length := by
  rw [← (spread_tally l).length_eq, spread, List.length_flatMap]
  simp only [List.length_replicate]

section
variable [DecidableEq κ]

omit [Ord κ] in
theorem count_spread_of_forall_ne {k : κ} {m : List (κ × Nat)} (h : ∀ x ∈ m, x.1 ≠ k) :
    (spread m).count k = 0 := by
  rw [List.count_eq_zero]
  intro hk
  obtain ⟨x, hx, hkx⟩ := List.mem_flatMap.1 hk
  exact h x hx (List.eq_of_mem_replicate hkx).symm

theorem count_spread_of_mem [OrientedOrd κ] {k : κ} {n : Nat} {m : List (κ × Nat)}
    (hm : Increases m) (h : (k, n) ∈ m) : (spread m).count k = n := by
  obtain ⟨before, after, rfl⟩ := List.append_of_mem h
  obtain ⟨-, hafter, hbefore⟩ := List.pairwise_append.1 hm
  have hbefore := count_spread_of_forall_ne fun x hx =>
    fst_ne_of_compare (hbefore x hx _ List.mem_cons_self)
  have hafter := count_spread_of_forall_ne fun x hx =>
    (fst_ne_of_compare ((increases_cons.1 hafter).1 x hx)).symm
  have hspread : spread (before ++ (k, n) :: after) =
      spread before ++ (List.replicate n k ++ spread after) := by
    rw [spread, List.flatMap_append, List.flatMap_cons]
    rfl
  rw [hspread, List.count_append, List.count_append, hbefore, hafter, List.count_replicate_self]
  omega

/-- a tally has the keys that occur, each with the number of times -/
theorem mem_tally_iff [TransOrd κ] [LawfulEqOrd κ] {k : κ} {n : Nat} {l : List κ} :
    (k, n) ∈ tally l ↔ n = l.count k ∧ 0 < n := by
  have hcount {n : Nat} (h : (k, n) ∈ tally l) : n = l.count k :=
    (count_spread_of_mem (increases_tally l) h).symm.trans ((spread_tally l).count_eq k)
  constructor
  · intro h
    exact ⟨hcount h, pos_of_mem_tally _ h⟩
  · rintro ⟨rfl, hpos⟩
    have hk : k ∈ spread (tally l) := (spread_tally l).mem_iff.2 (List.count_pos_iff.1 hpos)
    obtain ⟨⟨k', n⟩, hx, hkx⟩ := List.mem_flatMap.1 hk
    obtain rfl : k = k' := List.eq_of_mem_replicate hkx
    rwa [← hcount hx]

/-- the order in which keys are counted makes no difference -/
theorem tally_congr [TransOrd κ] [LawfulEqOrd κ] {l l' : List κ} (h : l.Perm l') :
    tally l = tally l' := by
  refine eq_of_mem_iff (increases_tally l) (increases_tally l') fun x => ?_
  rw [mem_tally_iff, mem_tally_iff, h.count_eq]

end

end ContractAudit.Ordered
