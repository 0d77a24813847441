import Mathlib.Data.List.Basic
import ContractAudit.FileTree.Walk
import ContractAudit.Proofs.RawTexts

/-!
# Components of paths and their order

* `Path.text_mk`, `Path.mk_text`: the paths of texts, and their texts.
* `Path.components_join`: a path below another has one component more.
* `FileTree.components_pathBelow`: so has every path that a walk spells.
* `Std.TransOrd Path`, `Path.compare_eq_iff`: the order of paths is a total preorder, in which the
  spellings of one list of components are equal.
* `extension?_eq_some_iff`, `extension?_eq_some_iff_of_ne`: the extension of a name.
-/

namespace ContractAudit

open Std

/-! ## texts -/

namespace Path

theorem text_mk (s : String) : (mk s).text = s := RawText.text_ofString s

theorem mk_text {p : Path} (h : p.raw.IsUtf8) : mk p.text = p := congrArg ofRaw h

end Path

/-! ## pieces between slashes -/

theorem splitSlash_nil : splitSlash [] = [[]] := rfl

theorem splitSlash_cons_slash (s : List UInt8) :
    splitSlash (slashByte :: s) = [] :: splitSlash s := rfl

theorem splitSlash_cons {c : UInt8} (hc : c ≠ slashByte) (s : List UInt8) :
    splitSlash (c :: s) =
      match splitSlash s with
      | [] => [[c]]
      | p :: ps => (c :: p) :: ps := by
  show (if c = slashByte then _ else _) = _
  rw [if_neg hc]
  rfl

theorem splitSlash_ne_nil (s : List UInt8) : splitSlash s ≠ [] := by
  cases s with
  | nil => exact List.cons_ne_nil _ _
  | cons c s =>
    by_cases hc : c = slashByte
    · rw [hc, splitSlash_cons_slash]
      exact List.cons_ne_nil _ _
    · rw [splitSlash_cons hc]
      split <;> exact List.cons_ne_nil _ _

theorem splitSlash_append (a b : List UInt8) :
    splitSlash (a ++ slashByte :: b) = splitSlash a ++ splitSlash b := by
  induction a with
  | nil => rfl
  | cons c a ih =>
    rw [List.cons_append]
    by_cases hc : c = slashByte
    · rw [hc, splitSlash_cons_slash, splitSlash_cons_slash, ih]
      rfl
    · rw [splitSlash_cons hc, splitSlash_cons hc, ih]
      obtain ⟨p, ps, h⟩ := List.exists_cons_of_ne_nil (splitSlash_ne_nil a)
      rw [h]
      rfl

theorem splitSlash_of_not_mem {s : List UInt8} (h : slashByte ∉ s) : splitSlash s = [s] := by
  induction s with
  | nil => rfl
  | cons c s ih =>
    rw [List.mem_cons, not_or] at h
    rw [splitSlash_cons (Ne.symm h.1), ih h.2]

/-! ## components -/

/-- it is the name of an entry: no slash, and none of the names that lead elsewhere -/
def IsName (s : RawText) : Prop := s ≠ "" ∧ s ≠ "." ∧ s ≠ ".." ∧ slashByte ∉ s.bytes

instance (s : RawText) : Decidable (IsName s) := by unfold IsName; infer_instance

/-- the names that lead elsewhere are short -/
theorem isName_of_length {s : RawText} (hlength : 2 < s.size) (hslash : slashByte ∉ s.bytes) :
    IsName s := by
  have hne (t : RawText) (ht : t.size ≤ 2) : s ≠ t := by
    rintro rfl
    omega
  exact ⟨hne "" (by decide), hne "." (by decide), hne ".." (by decide), hslash⟩

namespace Path

/-- the components of a path that has these pieces between its slashes -/
def componentsOf (absolute : Bool) (pieces : List (List UInt8)) : List Component :=
  (if pieces.head? = some [dotByte] then [.current] else if absolute then [.root] else []) ++
    pieces.filterMap Component.ofPiece?

theorem components_eq (p : Path) :
    p.components = componentsOf p.isAbsolute (splitSlash p.raw.bytes) := rfl

theorem componentsOf_append {ps : List (List UInt8)} (hps : ps ≠ []) (absolute : Bool)
    (qs : List (List UInt8)) :
    componentsOf absolute (ps ++ qs) =
      componentsOf absolute ps ++ qs.filterMap Component.ofPiece? := by
  unfold componentsOf
  rw [List.head?_append_of_ne_nil _ hps, List.filterMap_append, List.append_assoc]

theorem Component.ofPiece?_of_isName {s : RawText} (h : IsName s) :
    Component.ofPiece? s.bytes = some (.name s) := by
  obtain ⟨hempty, hdot, hdots, -⟩ := h
  have hne : ∀ t : RawText, s ≠ t → s.bytes ≠ t.bytes := fun t ht h =>
    ht (RawText.bytes_inj.1 h)
  have hempty : s.bytes ≠ [] := hne "" hempty
  have hdot : s.bytes ≠ [dotByte] := hne "." hdot
  have hdots : s.bytes ≠ [dotByte, dotByte] := hne ".." hdots
  rw [Component.ofPiece?, if_neg (not_or.2 ⟨hempty, hdot⟩), if_neg hdots]

theorem isAbsolute_append {s : RawText} (hs : ¬ s.isEmpty) (t : RawText) :
    (ofRaw (s ++ t)).isAbsolute = (ofRaw s).isAbsolute := by
  have hne : s.bytes ≠ [] := mt RawText.isEmpty_iff.2 hs
  obtain ⟨c, l, h⟩ := List.exists_cons_of_ne_nil hne
  simp [isAbsolute, h]

theorem components_join {p : Path} (hp : ¬ p.raw.isEmpty) {name : RawText} (hname : IsName name) :
    (p.join ⟨name⟩).components = p.components ++ [.name name] := by
  have hrel : (ofRaw name).isAbsolute = false := by
    rw [Bool.eq_false_iff]
    intro h
    refine hname.2.2.2 (List.mem_of_mem_head? ?_)
    exact beq_iff_eq.1 h
  have hlast : (splitSlash name.bytes).filterMap Component.ofPiece? = [.name name] := by
    rw [splitSlash_of_not_mem hname.2.2.2, List.filterMap_cons, Component.ofPiece?_of_isName hname]
    rfl
  rw [join, hrel, if_neg (by simp [hp]), components_eq p]
  split
  · rename_i hslash
    obtain ⟨a, ha⟩ : ∃ a, p.raw.bytes = a ++ [slashByte] := by
      obtain ⟨a, ha⟩ := List.getLast?_eq_some_iff.1 hslash
      exact ⟨a, ha⟩
    rw [components_eq, isAbsolute_append hp]
    show componentsOf p.isAbsolute (splitSlash (p.raw ++ name).bytes) = _
    rw [RawText.bytes_append, ha, List.append_assoc, List.singleton_append, splitSlash_append,
      splitSlash_append, componentsOf_append (splitSlash_ne_nil a),
      componentsOf_append (splitSlash_ne_nil a), hlast, splitSlash_nil]
    simp [Component.ofPiece?]
  · rw [components_eq, RawText.append_assoc, isAbsolute_append hp]
    show componentsOf p.isAbsolute (splitSlash (p.raw ++ ("/" ++ name)).bytes) = _
    rw [RawText.bytes_append, RawText.bytes_append]
    show componentsOf p.isAbsolute (splitSlash (p.raw.bytes ++ slashByte :: name.bytes)) = _
    rw [splitSlash_append, componentsOf_append (splitSlash_ne_nil _), hlast]

theorem not_isEmpty_join {p : Path} (hp : ¬ p.raw.isEmpty) (q : Path) :
    ¬ (p.join q).raw.isEmpty := by
  rw [RawText.isEmpty_iff] at hp ⊢
  unfold join
  split_ifs with habsolute
  · rcases habsolute with habsolute | hempty
    · intro h
      rw [isAbsolute, h] at habsolute
      cases habsolute
    · exact absurd (RawText.isEmpty_iff.1 hempty) hp
  · simp [hp]
  · simp [hp]

end Path

namespace FileTree

theorem pathBelow_cons (root : Path) (name : RawText) (names : Location) :
    pathBelow root (name :: names) = pathBelow (root.join ⟨name⟩) names := rfl

theorem not_isEmpty_pathBelow {root : Path} (hroot : ¬ root.raw.isEmpty) (names : Location) :
    ¬ (pathBelow root names).raw.isEmpty := by
  induction names generalizing root with
  | nil => exact hroot
  | cons name names ih => exact ih (Path.not_isEmpty_join hroot ⟨name⟩)

theorem components_pathBelow {root : Path} (hroot : ¬ root.raw.isEmpty) {names : Location}
    (hnames : ∀ name ∈ names, IsName name) :
    (pathBelow root names).components = root.components ++ names.map .name := by
  induction names generalizing root with
  | nil => exact (List.append_nil _).symm
  | cons name names ih =>
    have hname := hnames name List.mem_cons_self
    rw [pathBelow_cons, ih (Path.not_isEmpty_join hroot _)
      fun n hn => hnames n (List.mem_cons_of_mem _ hn), Path.components_join hroot hname,
      List.append_assoc]
    rfl

end FileTree

/-! ## the order -/

namespace Path

instance : TransOrd Component :=
  inferInstanceAs (TransCmp (compareLex (compareOn Component.rank) (compareOn Component.nameText)))

instance : LawfulEqOrd Component where
  eq_of_compare {a b} h := by
    obtain ⟨hrank, hname⟩ := Ordering.then_eq_eq.1 h
    have hrank := LawfulEqOrd.eq_of_compare hrank
    have hname := LawfulEqOrd.eq_of_compare hname
    cases a <;> cases b <;> simp_all [Component.rank, Component.nameText]

instance : TransOrd Path := inferInstanceAs (TransCmp (compareOn Path.components))

/-- two spellings are equal in the order if they have the same components -/
theorem compare_eq_iff {p q : Path} : compare p q = .eq ↔ p.components = q.components := by
  show compare p.components q.components = .eq ↔ _
  exact compare_eq_iff_eq

end Path

/-! ## extensions -/

/-- an extension has no dot in it, and something stands before the dot that it comes after -/
theorem extension?_eq_some_iff {name e : RawText} : extension? name = some e ↔
    name ≠ ".." ∧ dotByte ∉ e.bytes ∧ ∃ stem : RawText, stem ≠ "" ∧ name = stem ++ "." ++ e := by
  constructor
  · intro h
    unfold extension? at h
    split_ifs at h with hdots
    have hsplit : name.bytes.reverse.takeWhile (· != dotByte) ++
        name.bytes.reverse.dropWhile (· != dotByte) = name.bytes.reverse :=
      List.takeWhile_append_dropWhile
    have hdot := List.head?_dropWhile_not (· != dotByte) name.bytes.reverse
    -- behind the last dot, the name read from its end
    rcases hrest : name.bytes.reverse.dropWhile (· != dotByte) with - | ⟨d, - | ⟨c, stem⟩⟩
    · simp only [hrest] at h
      cases h
    · simp only [hrest] at h
      cases h
    · simp only [hrest, Option.some.injEq] at h hsplit hdot
      obtain rfl : d = dotByte := by simpa using hdot
      refine ⟨hdots, ?_, ⟨(c :: stem).reverse⟩, by simp, RawText.bytes_inj.1 ?_⟩
      · rw [← h, List.mem_reverse]
        intro hmem
        have hbefore := List.all_eq_true.1 List.all_takeWhile dotByte hmem
        exact absurd rfl (bne_iff_ne.1 hbefore)
      · rw [← List.reverse_inj, ← hsplit, ← h]
        simp
  · rintro ⟨hdots, he, stem, hstem, rfl⟩
    have hreverse : (stem ++ "." ++ e).bytes.reverse =
        e.bytes.reverse ++ dotByte :: stem.bytes.reverse := by
      simp
    have hbefore : ∀ c ∈ e.bytes.reverse, (c != dotByte) = true := by
      intro c hc
      refine bne_iff_ne.2 ?_
      rintro rfl
      exact he (List.mem_reverse.1 hc)
    obtain ⟨c, cs, hcons⟩ := List.exists_cons_of_ne_nil
      (mt List.reverse_eq_nil_iff.1 fun h => hstem (RawText.bytes_inj.1 h))
    unfold extension?
    rw [if_neg hdots]
    simp only [hreverse, List.takeWhile_append_of_pos hbefore, List.dropWhile_append_of_pos hbefore,
      hcons]
    simp

/-- the names with an extension that is not empty -/
theorem extension?_eq_some_iff_of_ne {name e : RawText} (he : e ≠ "") (hdot : dotByte ∉ e.bytes) :
    extension? name = some e ↔ ∃ stem : RawText, stem ≠ "" ∧ name = stem ++ ("." ++ e) := by
  rw [extension?_eq_some_iff, and_iff_right hdot]
  simp only [RawText.append_assoc]
  refine and_iff_right_of_imp ?_
  rintro ⟨stem, -, rfl⟩ hdots
  -- both would end with the same character
  have hlast := congrArg (fun s => s.bytes.getLast?) hdots
  obtain ⟨c, hc⟩ := Option.ne_none_iff_exists'.1
    (mt List.getLast?_eq_none_iff.1 fun h => he (RawText.bytes_inj.1 h))
  simp only [RawText.bytes_append, List.getLast?_append, hc, Option.some_or] at hlast
  obtain rfl : c = dotByte := Option.some.inj (hlast.trans (by decide))
  exact hdot (List.mem_of_getLast? hc)

end ContractAudit
