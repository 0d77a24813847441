import ContractAudit.Json.Record
import ContractAudit.Proofs.FloatText
import ContractAudit.Proofs.JsonText
import ContractAudit.Proofs.OrderedMaps

/-!
# Fields of records

* `Json.isPlain_record`, `Json.isPlain_ofFloat`, …: what is made is plain.
* `Json.named k ms`: the members of a name.
* `Json.fields?_eq_some_iff`: the fields of a record are looked up in its members, or in an array;
  those of a written record by `Json.fields?_record`.
* `Json.list?_map_eq_some_iff`, `Json.map?_record_eq_some_iff`, `Json.optional_orNull_iff`: a list,
  a map or an optional value is read back if everything in it is; the keys of a map must increase.
* `Json.forall_of_list?`, `Json.forall_of_map?`, `Json.forall_of_optional`: what holds of everything
  that is read holds of everything in a list, a map or an optional value.
-/

namespace ContractAudit.Json

/-! ## plain values -/

theorem arePlain_iff {xs : List Json} : ArePlain xs ↔ ∀ x ∈ xs, x.IsPlain := by
  induction xs with
  | nil => exact ⟨fun _ _ h => (nomatch h), fun _ => trivial⟩
  | cons x xs ih => rw [ArePlain, ih, List.forall_mem_cons]

theorem isPlain_record {ms : List (String × Json)} :
    (record ms).IsPlain ↔ ∀ m ∈ ms, m.2.IsPlain := by
  show MembersArePlain _ ↔ _
  induction ms with
  | nil => exact ⟨fun _ _ h => (nomatch h), fun _ => trivial⟩
  | cons m ms ih =>
    rw [List.map_cons, MembersArePlain, ih, List.forall_mem_cons]
    exact and_iff_right rfl

theorem isPlain_text (s : String) : (text s).IsPlain := rfl

theorem isPlain_bool (b : Bool) : (bool b).IsPlain := trivial

theorem isPlain_ofNat (n : Nat) : (ofNat n).IsPlain := .inl (isUnsigned_toDigits n)

theorem isPlain_ofInt (n : Int) : (ofInt n).IsPlain := by
  cases n with
  | ofNat n => exact isPlain_ofNat n
  | negSucc n => exact .inr ⟨_, rfl, isUnsigned_toDigits (n + 1)⟩

/-- numbers that are not finite are written as null -/
theorem isPlain_ofFloat (x : Float) : (ofFloat x).IsPlain := by
  rw [ofFloat]
  split
  · rename_i h
    exact Decimal.isNumeral_number? h
  · trivial

section
variable {α : Type} {write : α → Json}

theorem isPlain_array_map {xs : List α} (h : ∀ x, (write x).IsPlain) :
    (array (xs.map write)).IsPlain := by
  refine arePlain_iff.2 fun y hy => ?_
  obtain ⟨x, -, rfl⟩ := List.mem_map.1 hy
  exact h x

theorem isPlain_record_map {xs : List (String × α)} (h : ∀ x, (write x).IsPlain) :
    (record (xs.map fun (k, x) => (k, write x))).IsPlain := by
  refine isPlain_record.2 fun m hm => ?_
  obtain ⟨x, -, rfl⟩ := List.mem_map.1 hm
  exact h x.2

theorem isPlain_orNull {x : Option α} (h : ∀ x, (write x).IsPlain) : (orNull write x).IsPlain := by
  cases x with
  | none => trivial
  | some x => exact h x

end

/-! ## reading one after the other -/

section
variable {β γ : Type} {f : β → Option γ}

theorem mapM_cons_eq_some_iff {x : β} {xs : List β} {y : γ} {ys : List γ} :
    (x :: xs).mapM f = some (y :: ys) ↔ f x = some y ∧ xs.mapM f = some ys := by
  rw [List.mapM_cons]
  cases f x with
  | none => exact ⟨fun h => (nomatch h), fun ⟨h, _⟩ => (nomatch h)⟩
  | some z =>
    cases xs.mapM f with
    | none => exact ⟨fun h => (nomatch h), fun ⟨_, h⟩ => (nomatch h)⟩
    | some zs =>
      show some (z :: zs) = _ ↔ _
      simp

theorem mapM_eq_none_of_mem {xs : List β} {x : β} (hx : x ∈ xs) (h : f x = none) :
    xs.mapM f = none := by
  induction xs with
  | nil => cases hx
  | cons y xs ih =>
    rw [List.mapM_cons]
    rcases List.mem_cons.1 hx with rfl | hx
    · rw [h]
      rfl
    · rw [ih hx]
      cases f y <;> rfl

theorem mapM_middle {before after : List β} {x x' : β} {ys : List γ}
    (hx : ∀ y, f x = some y → f x' = some y)
    (h : (before ++ x :: after).mapM f = some ys) : (before ++ x' :: after).mapM f = some ys := by
  cases hy : f x with
  | none =>
    rw [mapM_eq_none_of_mem (List.mem_append_right _ List.mem_cons_self) hy] at h
    cases h
  | some y =>
    rw [← h, List.mapM_append, List.mapM_append, List.mapM_cons, List.mapM_cons, hx y hy, hy]

theorem mapM_map_eq_some_iff {g : γ → β} {ys : List γ} :
    (ys.map g).mapM f = some ys ↔ ∀ y ∈ ys, f (g y) = some y := by
  induction ys with
  | nil => exact ⟨fun _ _ h => (nomatch h), fun _ => rfl⟩
  | cons y ys ih => rw [List.map_cons, mapM_cons_eq_some_iff, ih, List.forall_mem_cons]

theorem forall_of_mapM {P : γ → Prop} (hP : ∀ x y, f x = some y → P y) {xs : List β} {ys : List γ}
    (h : xs.mapM f = some ys) : ∀ y ∈ ys, P y := by
  induction xs generalizing ys with
  | nil =>
    cases h
    exact fun _ h => nomatch h
  | cons x xs ih =>
    cases ys with
    | nil => exact fun _ h => nomatch h
    | cons y ys =>
      obtain ⟨hy, hys⟩ := mapM_cons_eq_some_iff.1 h
      exact List.forall_mem_cons.2 ⟨hP x y hy, ih hys⟩

end

/-! ## looking up fields -/

theorem members?_record (ms : List (String × Json)) : (record ms).members? = some ms := by
  show (ms.map fun m => (some m.1, m.2)).mapM (fun m => m.1.map (·, m.2)) = _
  induction ms with
  | nil => rfl
  | cons m ms ih =>
    rw [List.map_cons, List.mapM_cons, ih]
    rfl

theorem members?_eq_some_iff {x : Json} {ms : List (String × Json)} :
    x.members? = some ms ↔ x = record ms := by
  constructor
  · intro h
    cases x with
    | object ns =>
      rw [record, members?] at *
      congr 1
      induction ns generalizing ms with
      | nil =>
        cases h
        rfl
      | cons n ns ih =>
        cases ms with
        | nil =>
          rw [List.mapM_cons] at h
          obtain ⟨_, -, h⟩ := Option.bind_eq_some_iff.1 h
          obtain ⟨_, -, h⟩ := Option.bind_eq_some_iff.1 h
          cases h
        | cons m ms =>
          obtain ⟨hm, hms⟩ := mapM_cons_eq_some_iff.1 h
          obtain ⟨k, hk, rfl⟩ := Option.map_eq_some_iff.1 hm
          rw [List.map_cons, ← ih hms]
          show n :: ns = (some k, n.2) :: ns
          rw [← hk]
    | _ => cases h
  · rintro rfl
    exact members?_record ms

theorem record_inj {ms ns : List (String × Json)} : record ms = record ns ↔ ms = ns := by
  refine ⟨fun h => ?_, congrArg record⟩
  have hmembers := congrArg members? h
  rw [members?_record, members?_record] at hmembers
  exact Option.some.inj hmembers

/-- the members of a name -/
def named (k : String) (ms : List (String × Json)) : List (String × Json) :=
  ms.filter fun m => m.1 == k

theorem lookup_eq (k : String) (ms : List (String × Json)) :
    ms.lookup k = (named k ms).head?.map Prod.snd := by
  induction ms with
  | nil => rfl
  | cons m ms ih =>
    rw [named, List.filter_cons, List.lookup_cons]
    by_cases h : m.1 = k
    · subst h
      simp
    · have h' : (k == m.1) = false := beq_eq_false_iff_ne.2 fun e => h e.symm
      rw [h', if_neg (by rwa [beq_iff_eq])]
      exact ih

theorem length_named (k : String) (ms : List (String × Json)) :
    (named k ms).length = (ms.map Prod.fst).count k := by
  rw [named, List.count, List.countP_map, List.countP_eq_length_filter]
  rfl

theorem fields?_record_eq_some_iff {names : List String} {ms : List (String × Json)}
    {get : String → Option Json} : (record ms).fields? names = some get ↔
      (∀ k ∈ names, (named k ms).length ≤ 1) ∧ get = fun k => ms.lookup k := by
  have hmembers := members?_record ms
  rw [record] at hmembers ⊢
  simp only [fields?, hmembers, Option.ite_none_right_eq_some, Option.some_inj, List.all_eq_true,
    decide_eq_true_iff]
  exact and_congr_right fun _ => eq_comm

/-- the fields of a record, which is given as an object or as an array -/
theorem fields?_eq_some_iff {names : List String} {x : Json} {get : String → Option Json} :
    x.fields? names = some get ↔
      (∃ ms, x = record ms ∧ (∀ k ∈ names, (named k ms).length ≤ 1) ∧ get = fun k => ms.lookup k) ∨
      ∃ xs, x = array xs ∧ xs.length = names.length ∧ get = fun k => (names.zip xs).lookup k := by
  constructor
  · intro h
    cases x with
    | array xs =>
      rw [fields?, Option.ite_none_right_eq_some, Option.some_inj] at h
      exact .inr ⟨xs, rfl, h.1, h.2.symm⟩
    | object ns =>
      cases hms : members? (object ns) with
      | none =>
        simp only [fields?, hms] at h
        cases h
      | some ms =>
        rw [members?_eq_some_iff.1 hms] at h ⊢
        exact .inl ⟨ms, rfl, fields?_record_eq_some_iff.1 h⟩
    | _ => cases h
  · rintro (⟨ms, rfl, h⟩ | ⟨xs, rfl, hlength, rfl⟩)
    · exact fields?_record_eq_some_iff.2 h
    · exact if_pos hlength

/-- the fields of a written record are looked up in it -/
theorem fields?_record {names : List String} {ms : List (String × Json)}
    (hnames : ms.map Prod.fst = names) (hnodup : names.Nodup) :
    (record ms).fields? names = some fun k => ms.lookup k := by
  refine fields?_record_eq_some_iff.2 ⟨fun k _ => ?_, rfl⟩
  rw [length_named, hnames]
  exact List.nodup_iff_count_le_one.1 hnodup k

theorem exists_fields?_record_iff {names : List String} {ms : List (String × Json)}
    (hnames : ms.map Prod.fst = names) (hnodup : names.Nodup)
    {P : (String → Option Json) → Prop} :
    (∃ get, (record ms).fields? names = some get ∧ P get) ↔ P fun k => ms.lookup k := by
  rw [fields?_record hnames hnodup]
  constructor
  · rintro ⟨get, hget, h⟩
    exact Option.some_inj.1 hget ▸ h
  · exact fun h => ⟨_, rfl, h⟩

/-- stated of `>>=`, so that the steps of a `do` are taken apart from the outside -/
theorem bind_eq_some_iff {α β : Type} {x : Option α} {f : α → Option β} {y : β} :
    (x >>= f) = some y ↔ ∃ a, x = some a ∧ f a = some y := Option.bind_eq_some_iff

section
variable {α : Type} {read : Json → Option α} {write : α → Json}

theorem exists_of_required {get : String → Option Json} {name : String} {x : α}
    (h : required get name read = some x) : ∃ y, read y = some x := by
  obtain ⟨y, -, hy⟩ := Option.bind_eq_some_iff.1 h
  exact ⟨y, hy⟩

/-! ## optional fields -/

/-- an optional value is read back if it is read back by itself -/
theorem optional_orNull_iff {get : String → Option Json} {name : String} {x : Option α}
    (hget : get name = some (orNull write x)) (hnull : read .null = none) :
    optional get name read = some x ↔ ∀ y ∈ x, read (write y) = some y := by
  rw [optional, hget]
  cases x with
  | none => exact ⟨fun _ _ h => (nomatch h), fun _ => rfl⟩
  | some y =>
    rw [orNull]
    simp only [Option.mem_def, Option.some_inj, forall_eq']
    split
    · rename_i h
      exact nomatch h
    · rename_i h
      rw [Option.some_inj.1 h, hnull]
      exact ⟨fun h => (nomatch h), fun h => (nomatch h)⟩
    · rename_i h
      rw [← Option.some_inj.1 h, Option.map_eq_some_iff]
      simp only [Option.some_inj, exists_eq_right]

theorem forall_of_optional {P : α → Prop} (hP : ∀ y x, read y = some x → P x)
    {get : String → Option Json} {name : String} {x : Option α}
    (h : optional get name read = some x) : ∀ y ∈ x, P y := by
  rw [optional] at h
  split at h
  · cases h
    exact fun _ h => nomatch h
  · cases h
    exact fun _ h => nomatch h
  · obtain ⟨y, hy, rfl⟩ := Option.map_eq_some_iff.1 h
    rintro z ⟨⟩
    exact hP _ y hy

/-! ## lists -/

theorem list?_map_eq_some_iff {xs : List α} :
    (array (xs.map write)).list? read = some xs ↔ ∀ x ∈ xs, read (write x) = some x :=
  mapM_map_eq_some_iff

theorem forall_of_list? {P : α → Prop} (hP : ∀ y x, read y = some x → P x) {y : Json}
    {xs : List α} (h : y.list? read = some xs) : ∀ x ∈ xs, P x := by
  cases y with
  | array ys => exact forall_of_mapM hP h
  | _ => cases h

/-! ## maps -/

theorem increases_congr {β : Type} {l : List (String × α)} {m : List (String × β)}
    (h : l.map Prod.fst = m.map Prod.fst) : Ordered.Increases l ↔ Ordered.Increases m := by
  have hkeys {γ : Type} (n : List (String × γ)) :
      Ordered.Increases n ↔ (n.map Prod.fst).Pairwise fun k k' => compare k k' = .lt := by
    rw [List.pairwise_map]
    rfl
  rw [hkeys, hkeys, h]

/-- a member of a map is read with its key -/
def readEntry (read : Json → Option α) (m : String × Json) : Option (String × α) :=
  (read m.2).map (m.1, ·)

theorem map?_eq_some_iff {x : Json} {m : List (String × α)} : x.map? read = some m ↔
    ∃ ms l, x = record ms ∧ ms.mapM (readEntry read) = some l ∧ Ordered.ofList l = m := by
  rw [map?, bind_eq_some_iff]
  constructor
  · rintro ⟨ms, hms, h⟩
    obtain ⟨l, hl, h⟩ := bind_eq_some_iff.1 h
    exact ⟨ms, l, members?_eq_some_iff.1 hms, hl, Option.some_inj.1 h⟩
  · rintro ⟨ms, l, rfl, hl, rfl⟩
    exact ⟨ms, members?_record ms, bind_eq_some_iff.2 ⟨l, hl, rfl⟩⟩

theorem map_fst_of_mapM {l : List (String × Json)} {m : List (String × α)}
    (h : l.mapM (readEntry read) = some m) : m.map Prod.fst = l.map Prod.fst := by
  induction l generalizing m with
  | nil =>
    cases h
    rfl
  | cons x l ih =>
    cases m with
    | nil =>
      rw [List.mapM_cons] at h
      obtain ⟨_, -, h⟩ := Option.bind_eq_some_iff.1 h
      obtain ⟨_, -, h⟩ := Option.bind_eq_some_iff.1 h
      cases h
    | cons y m =>
      obtain ⟨hy, hm⟩ := mapM_cons_eq_some_iff.1 h
      obtain ⟨v, -, rfl⟩ := Option.map_eq_some_iff.1 hy
      rw [List.map_cons, List.map_cons, ih hm]

/-- a map is read back if its values are and its keys increase -/
theorem map?_record_eq_some_iff {m : List (String × α)} :
    (record (m.map fun (k, x) => (k, write x))).map? read = some m ↔
      Ordered.Increases m ∧ ∀ x ∈ m, read (write x.2) = some x.2 := by
  have hvalues : (m.map fun (k, x) => (k, write x)).mapM (readEntry read) = some m ↔
      ∀ x ∈ m, read (write x.2) = some x.2 := by
    refine mapM_map_eq_some_iff.trans (forall₂_congr fun x _ => ?_)
    rw [readEntry, Option.map_eq_some_iff]
    exact ⟨fun ⟨y, hy, h⟩ => by rw [hy, ← h], fun h => ⟨x.2, h, rfl⟩⟩
  rw [map?_eq_some_iff]
  constructor
  · rintro ⟨ms, l, hms, hl, hm⟩
    obtain rfl := record_inj.1 hms
    have hincreases : Ordered.Increases m := hm ▸ Ordered.increases_ofList l
    have hkeys : l.map Prod.fst = m.map Prod.fst := by
      rw [map_fst_of_mapM hl, List.map_map]
      rfl
    rw [Ordered.ofList_of_increases ((increases_congr hkeys).2 hincreases)] at hm
    exact ⟨hincreases, hvalues.1 (hm ▸ hl)⟩
  · rintro ⟨hincreases, h⟩
    exact ⟨_, m, rfl, hvalues.2 h, Ordered.ofList_of_increases hincreases⟩

theorem forall_of_map? {P : α → Prop} (hP : ∀ y x, read y = some x → P x) {y : Json}
    {m : List (String × α)} (h : y.map? read = some m) :
    Ordered.Increases m ∧ ∀ x ∈ m, P x.2 := by
  obtain ⟨ms, l, rfl, hl, rfl⟩ := map?_eq_some_iff.1 h
  refine ⟨Ordered.increases_ofList l, Ordered.forall_ofList ?_⟩
  refine forall_of_mapM (fun x y h => ?_) hl
  obtain ⟨v, hv, rfl⟩ := Option.map_eq_some_iff.1 h
  exact hP x.2 v hv

end

end ContractAudit.Json
