import Mathlib.Data.List.Duplicate
import Mathlib.Data.List.Perm.Basic
import Mathlib.Logic.Relation
import ContractAudit.Proofs.Fields

/-!
# Shapes of records

What a reader looks at in a value is said by a shape.  Where the shape is a record, the order of the
members, members of other names and optional members that are null make no difference; but a member
that is there twice, or one that is needed and missing, does.

* `Json.Shape`: the places of a value where records are read.
* `Json.Variation s x y`: `y` is `x` after one change that makes no difference.
* `Json.Flaw s x`: somewhere in `x` a member is there twice, or one that is needed is missing.
* `Json.ReadsShape s read`: the reader does not notice variations, and rejects flaws.
* `Json.Variation.follows`: what one variation changes in the members of known names.

The main statements are `Json.readsShape_struct`, `Json.readsShape_list`, `Json.readsShape_map` and,
for any number of variations, `Json.ReadsShape.of_varied`.
-/

namespace ContractAudit.Json

/-- a field of a record -/
structure Field (σ : Type) where
  name : String
  /-- may be null or missing -/
  isOptional : Bool
  shape : σ

/-- where a reader expects records -/
inductive Shape
  /-- no record inside -/
  | leaf
  | list (s : Shape)
  | map (s : Shape)
  | struct (fields : List (Field Shape))

namespace Field

def needed (name : String) (s : Shape) : Field Shape := ⟨name, false, s⟩

def optional (name : String) (s : Shape) : Field Shape := ⟨name, true, s⟩

end Field

/-- one change to a value that makes no difference: in a record members change places, a member of
another name is added, or an optional member that is null is left out -/
inductive Variation : Shape → Json → Json → Prop
  | permute {fs : List (Field Shape)} {ms ms' : List (String × Json)} (h : ms.Perm ms') :
      Variation (.struct fs) (record ms) (record ms')
  | insert {fs : List (Field Shape)} (before after : List (String × Json)) {k : String} (x : Json)
      (hk : k ∉ fs.map Field.name) :
      Variation (.struct fs) (record (before ++ after)) (record (before ++ (k, x) :: after))
  | drop {fs : List (Field Shape)} (before after : List (String × Json)) {f : Field Shape}
      (hf : f ∈ fs) (hoptional : f.isOptional) :
      Variation (.struct fs) (record (before ++ (f.name, null) :: after)) (record (before ++ after))
  | member {fs : List (Field Shape)} (before after : List (String × Json)) {f : Field Shape}
      {x x' : Json} (hf : f ∈ fs) (h : Variation f.shape x x') :
      Variation (.struct fs) (record (before ++ (f.name, x) :: after))
        (record (before ++ (f.name, x') :: after))
  | element {s : Shape} (before after : List Json) {x x' : Json} (h : Variation s x x') :
      Variation (.list s) (array (before ++ x :: after)) (array (before ++ x' :: after))
  | value {s : Shape} (before after : List (String × Json)) (k : String) {x x' : Json}
      (h : Variation s x x') :
      Variation (.map s) (record (before ++ (k, x) :: after)) (record (before ++ (k, x') :: after))

/-- any number of changes, one after the other -/
def Varied (s : Shape) : Json → Json → Prop := Relation.ReflTransGen (Variation s)

/-- in a record, a known member is there twice, or one that is needed is missing; a record can also
be given as the array of its fields, and then have such records inside -/
inductive Flaw : Shape → Json → Prop
  | twice {fs : List (Field Shape)} {ms : List (Option String × Json)} {f : Field Shape}
      (hf : f ∈ fs) (h : List.Duplicate (some f.name) (ms.map Prod.fst)) :
      Flaw (.struct fs) (object ms)
  | missing {fs : List (Field Shape)} {ms : List (Option String × Json)} {f : Field Shape}
      (hf : f ∈ fs) (hneeded : f.isOptional = false) (h : some f.name ∉ ms.map Prod.fst) :
      Flaw (.struct fs) (object ms)
  | member {fs : List (Field Shape)} {ms : List (Option String × Json)} {f : Field Shape} {x : Json}
      (hf : f ∈ fs) (hx : (some f.name, x) ∈ ms) (h : Flaw f.shape x) :
      Flaw (.struct fs) (object ms)
  | item {fs : List (Field Shape)} {xs : List Json} {f : Field Shape} {x : Json}
      (hx : (f, x) ∈ fs.zip xs) (h : Flaw f.shape x) : Flaw (.struct fs) (array xs)
  | element {s : Shape} {xs : List Json} {x : Json} (hx : x ∈ xs) (h : Flaw s x) :
      Flaw (.list s) (array xs)
  | value {s : Shape} {ms : List (Option String × Json)} {k : Option String} {x : Json}
      (hx : (k, x) ∈ ms) (h : Flaw s x) : Flaw (.map s) (object ms)

theorem Variation.ne_null {s : Shape} {x y : Json} (h : Variation s x y) : x ≠ null ∧ y ≠ null := by
  cases h <;> exact ⟨Json.noConfusion, Json.noConfusion⟩

theorem Flaw.ne_null {s : Shape} {x : Json} (h : Flaw s x) : x ≠ null := by
  cases h <;> exact Json.noConfusion

/-- The reader does not notice variations, and rejects flaws. -/
structure ReadsShape {α : Type} (s : Shape) (read : Json → Option α) : Prop where
  variation : ∀ {x y a}, Variation s x y → read x = some a → read y = some a
  flaw : ∀ {x}, Flaw s x → read x = none

/-- the run of variations -/
theorem ReadsShape.of_varied {α : Type} {s : Shape} {read : Json → Option α} (h : ReadsShape s read)
    {x y : Json} {a : α} (hxy : Varied s x y) (hx : read x = some a) : read y = some a := by
  induction hxy with
  | refl => exact hx
  | tail _ hstep ih => exact h.variation hstep ih

/-! ## lists and maps -/

section
variable {α : Type} {s : Shape} {read : Json → Option α}

theorem readsShape_leaf (read : Json → Option α) : ReadsShape .leaf read :=
  ⟨fun h => (nomatch h), fun h => (nomatch h)⟩

theorem readsShape_list (h : ReadsShape s read) : ReadsShape (.list s) (list? read) where
  variation := by
    rintro _ _ xs ⟨⟩ hxs
    exact mapM_middle (fun _ => h.variation ‹_›) hxs
  flaw := by
    rintro _ ⟨⟩
    exact mapM_eq_none_of_mem ‹_› (h.flaw ‹_›)

theorem readsShape_map (h : ReadsShape s read) : ReadsShape (.map s) (map? read) where
  variation := by
    intro _ _ m hvariation hm
    cases hvariation with | @value _ before after k x x' hx => ?_
    obtain ⟨ms, l, hms, hl, rfl⟩ := map?_eq_some_iff.1 hm
    obtain rfl := record_inj.1 hms
    have hentry : ∀ e, readEntry read (k, x) = some e → readEntry read (k, x') = some e := by
      intro e he
      obtain ⟨a, ha, rfl⟩ := Option.map_eq_some_iff.1 he
      rw [readEntry, h.variation hx ha, Option.map_some]
    exact map?_eq_some_iff.2 ⟨_, l, rfl, mapM_middle hentry hl, rfl⟩
  flaw := by
    intro x hflaw
    refine Option.eq_none_iff_forall_ne_some.2 fun m hm => ?_
    obtain ⟨ms, l, rfl, hl, rfl⟩ := map?_eq_some_iff.1 hm
    cases hflaw with | value hy hflaw => ?_
    obtain ⟨m, hm, he⟩ := List.mem_map.1 hy
    cases he
    have hnone : readEntry read m = none := by rw [readEntry, h.flaw hflaw, Option.map_none]
    rw [mapM_eq_none_of_mem hm hnone] at hl
    cases hl

end

/-! ## records -/

theorem named_append (k : String) (ms ns : List (String × Json)) :
    named k (ms ++ ns) = named k ms ++ named k ns := List.filter_append ..

theorem named_cons_self (k : String) (x : Json) (ms : List (String × Json)) :
    named k ((k, x) :: ms) = (k, x) :: named k ms := List.filter_cons_of_pos (beq_self_eq_true k)

theorem named_cons_of_ne {k : String} {m : String × Json} (h : m.1 ≠ k)
    (ms : List (String × Json)) : named k (m :: ms) = named k ms :=
  List.filter_cons_of_neg (by rwa [beq_iff_eq])

/-- a member that stands between others and is the only one of its name -/
theorem lookup_middle {k : String} {x : Json} {before after : List (String × Json)}
    (h : (named k (before ++ (k, x) :: after)).length ≤ 1) :
    named k (before ++ after) = [] ∧ (before ++ (k, x) :: after).lookup k = some x := by
  rw [named_append, named_cons_self, List.length_append, List.length_cons] at h
  have hbefore : named k before = [] := List.eq_nil_of_length_eq_zero (by omega)
  have hafter : named k after = [] := List.eq_nil_of_length_eq_zero (by omega)
  rw [lookup_eq, named_append, named_append, named_cons_self, hbefore, hafter]
  exact ⟨rfl, rfl⟩

/-- how the value of a field changes in one variation -/
inductive Field.Follows (f : Field Shape) : Option Json → Option Json → Prop
  | same (x : Option Json) : Follows f x x
  | dropped (h : f.isOptional) : Follows f (some null) none
  | varied {x y : Json} (h : Variation f.shape x y) : Follows f (some x) (some y)

/-- what one variation changes in the members of known names -/
theorem Variation.follows {fs : List (Field Shape)} (hnodup : (fs.map Field.name).Nodup)
    {x y : Json} (h : Variation (.struct fs) x y) : ∃ ms ms', x = record ms ∧ y = record ms' ∧
      ∀ f ∈ fs, (named f.name ms).length ≤ 1 →
        (named f.name ms').length ≤ 1 ∧ f.Follows (ms.lookup f.name) (ms'.lookup f.name) := by
  have hfield {f g : Field Shape} (hf : f ∈ fs) (hg : g ∈ fs) (hname : g.name = f.name) : g = f :=
    List.inj_on_of_nodup_map hnodup hg hf hname
  have hsame {f : Field Shape} {ms ms' : List (String × Json)}
      (h : named f.name ms = named f.name ms') (honce : (named f.name ms).length ≤ 1) :
      (named f.name ms').length ≤ 1 ∧ f.Follows (ms.lookup f.name) (ms'.lookup f.name) := by
    rw [lookup_eq, lookup_eq, ← h]
    exact ⟨honce, .same _⟩
  cases h with
  | @permute _ ms ms' hperm =>
    refine ⟨ms, ms', rfl, rfl, fun f _ honce => hsame ?_ honce⟩
    have hnamed : (named f.name ms).Perm (named f.name ms') := hperm.filter _
    generalize named f.name ms = l at hnamed honce
    match l with
    | [] => exact (List.nil_perm.1 hnamed).symm
    | [m] => exact List.singleton_perm.1 hnamed
  | @insert _ before after k x hk =>
    refine ⟨_, _, rfl, rfl, fun f hf honce => hsame ?_ honce⟩
    have hne : k ≠ f.name := fun e => hk (e ▸ List.mem_map_of_mem hf)
    rw [named_append, named_append, named_cons_of_ne hne]
  | @drop _ before after g hg hoptional =>
    refine ⟨_, _, rfl, rfl, fun f hf honce => ?_⟩
    by_cases hname : g.name = f.name
    · obtain rfl := hfield hf hg hname
      obtain ⟨hnone, hlookup⟩ := lookup_middle honce
      rw [hlookup, lookup_eq, hnone]
      exact ⟨Nat.zero_le 1, .dropped hoptional⟩
    · refine hsame ?_ honce
      rw [named_append, named_append, named_cons_of_ne hname]
  | @member _ before after g x x' hg hx =>
    refine ⟨_, _, rfl, rfl, fun f hf honce => ?_⟩
    by_cases hname : g.name = f.name
    · obtain rfl := hfield hf hg hname
      have honce' : (named g.name (before ++ (g.name, x') :: after)).length ≤ 1 := by
        rw [named_append, named_cons_self] at honce ⊢
        simpa using honce
      rw [(lookup_middle honce).2, (lookup_middle honce').2]
      exact ⟨honce', .varied hx⟩
    · refine hsame ?_ honce
      rw [named_append, named_append, named_cons_of_ne hname, named_cons_of_ne hname]

/-- How a record is put together from its fields: it follows their variations, and is rejected when
one that is needed is missing or one has a flaw. -/
structure ReadsFields {α : Type} (fs : List (Field Shape))
    (body : (String → Option Json) → Option α) : Prop where
  follows : ∀ {get get' a}, (∀ f ∈ fs, f.Follows (get f.name) (get' f.name)) →
    body get = some a → body get' = some a
  missing : ∀ {get f}, f ∈ fs → f.isOptional = false → get f.name = none → body get = none
  flaw : ∀ {get f x}, f ∈ fs → get f.name = some x → Flaw f.shape x → body get = none

section
variable {α β : Type} {s : Shape} {read : Json → Option β} {name : String} {fs : List (Field Shape)}

theorem readsFields_nil (a : α) : ReadsFields [] fun _ => some a where
  follows := fun _ h => h
  missing := fun h => (nomatch h)
  flaw := fun h => (nomatch h)

/-- one more field, which is read on its own -/
theorem ReadsFields.cons {f : Field Shape} {first : (String → Option Json) → Option β}
    (hfirst : ReadsFields [f] first) {body : β → (String → Option Json) → Option α}
    (h : ∀ v, ReadsFields fs (body v)) :
    ReadsFields (f :: fs) fun get => first get >>= fun v => body v get where
  follows := by
    intro get get' a hfollows ha
    obtain ⟨hf, hfs⟩ := List.forall_mem_cons.1 hfollows
    obtain ⟨v, hv, ha⟩ := bind_eq_some_iff.1 ha
    exact bind_eq_some_iff.2 ⟨v, hfirst.follows (List.forall_mem_singleton.2 hf) hv,
      (h v).follows hfs ha⟩
  missing := by
    intro get g hg hneeded hnone
    rcases List.mem_cons.1 hg with rfl | hg
    · rw [hfirst.missing List.mem_cons_self hneeded hnone]
      rfl
    · cases first get with
      | none => rfl
      | some v => exact (h v).missing hg hneeded hnone
  flaw := by
    intro get g x hg hx hflaw
    rcases List.mem_cons.1 hg with rfl | hg
    · rw [hfirst.flaw List.mem_cons_self hx hflaw]
      rfl
    · cases first get with
      | none => rfl
      | some v => exact (h v).flaw hg hx hflaw

theorem readsFields_required (hread : ReadsShape s read) :
    ReadsFields [.needed name s] fun get => required get name read where
  follows := by
    intro get get' a hfollows ha
    have hname : (Field.needed name s).Follows (get name) (get' name) :=
      hfollows _ List.mem_cons_self
    obtain ⟨x, hx, ha⟩ := Option.bind_eq_some_iff.1 ha
    rw [hx] at hname
    rw [required]
    generalize get' name = x' at hname
    cases hname with
    | same => exact ha
    | dropped h => cases h
    | varied h => exact hread.variation h ha
  missing := by
    intro get f hf _ hnone
    obtain rfl := List.mem_singleton.1 hf
    exact Option.bind_eq_none_iff.2 fun x hx => nomatch hx.symm.trans hnone
  flaw := by
    intro get f x hf hx hflaw
    obtain rfl := List.mem_singleton.1 hf
    rw [required, show get name = some x from hx, Option.bind_some]
    exact hread.flaw hflaw

theorem optional_of_ne_null {get : String → Option Json} {x : Json} (hx : x ≠ null)
    (h : get name = some x) : optional get name read = (read x).map some := by
  rw [optional, h]
  cases x with
  | null => exact absurd rfl hx
  | _ => rfl

theorem readsFields_optional (hread : ReadsShape s read) :
    ReadsFields [.optional name s] fun get => optional get name read where
  follows := by
    intro get get' a hfollows ha
    have hname : (Field.optional name s).Follows (get name) (get' name) :=
      hfollows _ List.mem_cons_self
    generalize hx : get name = x at hname
    generalize hx' : get' name = x' at hname
    cases hname with
    | same =>
      rw [optional, hx] at ha
      rw [optional, hx']
      exact ha
    | dropped h =>
      rw [optional, hx] at ha
      rw [optional, hx']
      exact ha
    | varied h =>
      rw [optional_of_ne_null h.ne_null.1 hx] at ha
      obtain ⟨b, hb, rfl⟩ := Option.map_eq_some_iff.1 ha
      rw [optional_of_ne_null h.ne_null.2 hx', hread.variation h hb, Option.map_some]
  missing := by
    intro get f hf hneeded _
    obtain rfl := List.mem_singleton.1 hf
    cases hneeded
  flaw := by
    intro get f x hf hx hflaw
    obtain rfl := List.mem_singleton.1 hf
    have hnone : read x = none := hread.flaw hflaw
    have hname : get name = some x := hx
    rw [optional_of_ne_null hflaw.ne_null hname, hnone, Option.map_none]

end

section
variable {α β : Type} {s : Shape} {read : Json → Option β} {name : String} {fs : List (Field Shape)}

theorem ReadsFields.needed {body : β → (String → Option Json) → Option α}
    (hread : ReadsShape s read) (h : ∀ v, ReadsFields fs (body v)) :
    ReadsFields (.needed name s :: fs) fun get => required get name read >>= fun v => body v get :=
  .cons (readsFields_required hread) h

theorem ReadsFields.optional {body : Option β → (String → Option Json) → Option α}
    (hread : ReadsShape s read) (h : ∀ v, ReadsFields fs (body v)) :
    ReadsFields (.optional name s :: fs) fun get =>
      Json.optional get name read >>= fun v => body v get :=
  .cons (readsFields_optional hread) h

/-- one more field with no record inside -/
theorem ReadsFields.leaf {body : β → (String → Option Json) → Option α}
    (h : ∀ v, ReadsFields fs (body v)) : ReadsFields (.needed name .leaf :: fs) fun get =>
      required get name read >>= fun v => body v get :=
  .needed (readsShape_leaf read) h

theorem ReadsFields.optionalLeaf {body : Option β → (String → Option Json) → Option α}
    (h : ∀ v, ReadsFields fs (body v)) : ReadsFields (.optional name .leaf :: fs) fun get =>
      Json.optional get name read >>= fun v => body v get :=
  .optional (readsShape_leaf read) h

end

/-- the only member of a name is found -/
theorem lookup_of_mem {k : String} {x : Json} {ms : List (String × Json)} (hx : (k, x) ∈ ms)
    (honce : (named k ms).length ≤ 1) : ms.lookup k = some x := by
  obtain ⟨before, after, rfl⟩ := List.append_of_mem hx
  exact (lookup_middle honce).2

section
variable {k : String} {ms : List (String × Json)}

theorem keys_record (ms : List (String × Json)) :
    (ms.map fun m => (some m.1, m.2)).map Prod.fst = (ms.map Prod.fst).map some := by
  rw [List.map_map, List.map_map]
  rfl

theorem one_lt_length_named (h : List.Duplicate (some k)
    ((ms.map fun m => (some m.1, m.2)).map Prod.fst)) : 1 < (named k ms).length := by
  rw [keys_record] at h
  obtain ⟨l, hl, hpair⟩ := List.sublist_map_iff.1 (List.duplicate_iff_sublist.1 h)
  obtain rfl : [k, k] = l := List.map_injective_iff.2 (Option.some_injective _) hpair
  have hle := hl.count_le k
  rw [List.count_cons_self, List.count_cons_self, ← length_named] at hle
  omega

theorem lookup_eq_none (h : some k ∉ (ms.map fun m => (some m.1, m.2)).map Prod.fst) :
    ms.lookup k = none := by
  rw [keys_record] at h
  have hnamed : named k ms = [] := by
    rw [List.eq_nil_iff_length_eq_zero, length_named, List.count_eq_zero]
    exact fun hk => h (List.mem_map_of_mem hk)
  rw [lookup_eq, hnamed]
  rfl

end

theorem readsShape_struct {α : Type} {fs : List (Field Shape)}
    {body : (String → Option Json) → Option α} (hnodup : (fs.map Field.name).Nodup)
    (h : ReadsFields fs body) :
    ReadsShape (.struct fs) fun x => x.fields? (fs.map Field.name) >>= body where
  variation := by
    intro x y a hvariation ha
    obtain ⟨get, hget, ha⟩ := bind_eq_some_iff.1 ha
    obtain ⟨ms, ms', rfl, rfl, hfollows⟩ := hvariation.follows hnodup
    rcases fields?_eq_some_iff.1 hget with ⟨ns, hns, honce, rfl⟩ | ⟨xs, hxs, -⟩
    · obtain rfl := record_inj.1 hns
      have hfollows (f : Field Shape) (hf : f ∈ fs) :=
        hfollows f hf (honce _ (List.mem_map_of_mem hf))
      refine bind_eq_some_iff.2 ⟨_, fields?_eq_some_iff.2 (.inl ⟨ms', rfl, ?_, rfl⟩),
        h.follows (fun f hf => (hfollows f hf).2) ha⟩
      exact List.forall_mem_map.2 fun f hf => (hfollows f hf).1
    · cases hxs
  flaw := by
    intro x hflaw
    cases hget : x.fields? (fs.map Field.name) with
    | none => rfl
    | some get =>
      show body get = none
      rcases fields?_eq_some_iff.1 hget with ⟨ms, rfl, honce, rfl⟩ | ⟨xs, rfl, hlength, rfl⟩
      · have honce (f : Field Shape) (hf : f ∈ fs) := honce f.name (List.mem_map_of_mem hf)
        cases hflaw with
        | @twice _ _ f hf hdouble => exact absurd (one_lt_length_named hdouble) (honce f hf).not_gt
        | missing hf hneeded hnone => exact h.missing hf hneeded (lookup_eq_none hnone)
        | @member _ _ f x hf hx hflaw =>
          obtain ⟨⟨k, y⟩, hm, he⟩ := List.mem_map.1 hx
          cases he
          exact h.flaw hf (lookup_of_mem hm (honce f hf)) hflaw
      · cases hflaw with
        | @item _ _ f x hx hflaw =>
          refine h.flaw (List.of_mem_zip hx).1 (lookup_of_mem ?_ ?_) hflaw
          · rw [List.zip_map_left]
            exact List.mem_map_of_mem (f := Prod.map Field.name id) hx
          · rw [length_named, List.map_fst_zip hlength.ge]
            exact List.nodup_iff_count_le_one.1 hnodup _

end ContractAudit.Json
