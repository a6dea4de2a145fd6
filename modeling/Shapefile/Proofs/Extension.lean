import Mathlib.Data.List.DropRight
import Mathlib.Data.Set.Basic
import Shapefile.Proofs.Consistency
import Shapefile.Proofs.SideBySide

/-! # The extension of a path

A path may name any file of a shapefile, since its extension is taken away before anything is
opened. So parses whose paths differ in the extension only are the same
(`Workspace.parse_extension`). What follows the last dot is an extension if the dot is in the last
name of the path and something other than dots is before it there; what remains is the base path,
and of the tree a parse sees nothing but what is at the four paths that are made of it
(`Workspace.LooksOnlyAt`). -/

namespace Shapefile

namespace Path

/-- What follows the last slash of a path. -/
def lastName (path : List Char) : List Char := path.rtakeWhile (· != '/')

/-- The last name is more than dots. -/
def IsNamed (path : List Char) : Prop := ∃ c ∈ lastName path, c ≠ '.'

/-- The last name has no dots other than those that it begins with. -/
def IsBare (path : List Char) : Prop := '.' ∉ (lastName path).dropWhile (· == '.')

/-- What may follow the dot of an extension. -/
def IsExtension (e : List Char) : Prop := ∀ c ∈ e, c ≠ '.' ∧ c ≠ '/'

instance (path : List Char) : Decidable (IsNamed path) :=
  List.decidableBEx (· ≠ '.') (lastName path)

instance (path : List Char) : Decidable (IsBare path) :=
  inferInstanceAs (Decidable ('.' ∉ (lastName path).dropWhile (· == '.')))

instance (e : List Char) : Decidable (IsExtension e) :=
  List.decidableBAll (fun c => c ≠ '.' ∧ c ≠ '/') e

variable {path before e : List Char}

theorem lastName_append (he : IsExtension e) :
    lastName (before ++ '.' :: e) = lastName before ++ '.' :: e := by
  have hkept : ∀ c ∈ (e.reverse ++ ['.'] : List Char), (c != '/') = true := by
    intro c hc
    rcases List.mem_append.mp hc with hc | hc
    · exact bne_iff_ne.mpr (he c (List.mem_reverse.mp hc)).2
    · cases List.mem_singleton.mp hc
      rfl
  have hback : (before ++ '.' :: e).reverse = (e.reverse ++ ['.']) ++ before.reverse := by simp
  rw [lastName, List.rtakeWhile, hback, List.takeWhile_append_of_pos hkept, List.reverse_append,
    lastName, List.rtakeWhile]
  simp

/-- The dot before an extension is the last dot of the path. What is before it is left, unless the
last name begins with nothing but dots there. -/
theorem stem_append (he : IsExtension e) :
    stem (before ++ '.' :: e) =
      if (lastName before).all (· == '.') then before ++ '.' :: e else before := by
  have hskipped : ∀ c ∈ e.reverse, (c != '.' && c != '/') = true := by
    intro c hc
    have h := he c (List.mem_reverse.mp hc)
    exact Bool.and_eq_true_iff.mpr ⟨bne_iff_ne.mpr h.1, bne_iff_ne.mpr h.2⟩
  have hback : (before ++ '.' :: e).reverse = e.reverse ++ '.' :: before.reverse := by simp
  have hdot : (before ++ '.' :: e).reverse.dropWhile (fun c => c != '.' && c != '/') =
      '.' :: before.reverse := by
    rw [hback, List.dropWhile_append_of_pos hskipped, List.dropWhile_cons_of_neg (by decide)]
  have hall : (before.reverse.takeWhile (· != '/')).all (· == '.') =
      (lastName before).all (· == '.') := by
    rw [lastName, List.rtakeWhile, List.all_reverse]
  simp only [stem, hdot, hall, List.reverse_reverse]

/-- A path from which something is taken has a last dot, and an extension after it. -/
theorem eq_append_or_stem_eq (path : List Char) :
    (∃ before e, IsExtension e ∧ path = before ++ '.' :: e) ∨ stem path = path := by
  cases hback : path.reverse.dropWhile fun c => c != '.' && c != '/' with
  | nil => exact .inr (by simp only [stem, hback])
  | cons c before =>
    by_cases hdot : c = '.'
    · subst hdot
      have hsplit := List.takeWhile_append_dropWhile (p := fun c => c != '.' && c != '/')
        (l := path.reverse)
      rw [hback] at hsplit
      refine .inl ⟨before.reverse,
        (path.reverse.takeWhile fun c => c != '.' && c != '/').reverse, ?_, ?_⟩
      · intro c hc
        simpa using List.mem_takeWhile_imp (List.mem_reverse.mp hc)
      · simpa using congrArg List.reverse hsplit.symm
    · refine .inr ?_
      simp only [stem, hback]
      split
      · rename_i heq
        exact absurd (List.cons.inj heq).1 hdot
      · rfl

theorem stem_append_of_named (named : IsNamed before) (he : IsExtension e) :
    stem (before ++ '.' :: e) = before := by
  rw [stem_append he, if_neg]
  obtain ⟨c, hc, hne⟩ := named
  intro hall
  exact hne (beq_iff_eq.mp (List.all_eq_true.mp hall c hc))

/-- Leading dots of the last name are no part of an extension. -/
theorem stem_eq_self (h : IsBare path) : stem path = path := by
  rcases eq_append_or_stem_eq path with ⟨before, e, he, rfl⟩ | hself
  · rw [stem_append he, if_pos]
    rw [List.all_eq_true]
    intro c hc
    by_contra hne
    rw [IsBare, lastName_append he, List.dropWhile_append] at h
    have hsome : ¬ ((lastName before).dropWhile (· == '.')).isEmpty := by
      rw [List.isEmpty_iff, List.dropWhile_eq_nil_iff]
      exact fun hall => hne (hall c hc)
    rw [if_neg hsome] at h
    exact h (List.mem_append_right _ List.mem_cons_self)
  · exact hself

/-- Either nothing is taken from a path or an extension, after a name. -/
theorem stem_append_rest (path : List Char) :
    stem path = path ∨ IsNamed (stem path) ∧ ∃ e, IsExtension e ∧ path = stem path ++ '.' :: e := by
  rcases eq_append_or_stem_eq path with ⟨before, e, he, rfl⟩ | hself
  · rw [stem_append he]
    split
    · exact .inl rfl
    · rename_i hdots
      refine .inr ⟨?_, e, he, rfl⟩
      by_contra hunnamed
      refine hdots (List.all_eq_true.mpr fun c hc => beq_iff_eq.mpr ?_)
      exact not_not.mp fun hne => hunnamed ⟨c, hc, hne⟩
  · exact .inl hself

/-! ## Paths as texts -/

theorem basePath_append {p e : String} (named : IsNamed p.toList) (he : IsExtension e.toList) :
    basePath (p ++ "." ++ e) = p := by
  have hlist : (p ++ "." ++ e).toList = p.toList ++ '.' :: e.toList := by simp
  rw [basePath, hlist, stem_append_of_named named he, String.ofList_toList]

theorem basePath_eq_self {p : String} (h : IsBare p.toList) : basePath p = p := by
  rw [basePath, stem_eq_self h, String.ofList_toList]

/-- A base path is that of a path in which no other characters occur than its own and the dot. -/
theorem exists_basePath_eq (path : String) :
    ∃ path', basePath path' = basePath path ∧
      ∀ c ∈ path'.toList, c ∈ (basePath path).toList ∨ c = '.' := by
  rcases stem_append_rest path.toList with hself | ⟨named, -⟩
  · refine ⟨path, rfl, fun c hc => .inl ?_⟩
    rwa [basePath, hself, String.ofList_toList]
  · refine ⟨basePath path ++ "." ++ "", basePath_append ?_ (by decide), fun c hc => ?_⟩
    · rwa [basePath, String.toList_ofList]
    · simpa using hc

theorem basePath_append_rest (path : String) :
    ∃ rest, path = basePath path ++ rest ∧
      (rest = "" ∨ ∃ e : String, IsExtension e.toList ∧ rest = "." ++ e) := by
  rcases stem_append_rest path.toList with hself | ⟨-, e, he, heq⟩
  · refine ⟨"", ?_, .inl rfl⟩
    rw [basePath, hself, String.ofList_toList, String.append_empty]
  · refine ⟨"." ++ String.ofList e, ?_, .inr ⟨String.ofList e, ?_, rfl⟩⟩
    · apply String.toList_injective
      rw [basePath]
      simpa using heq
    · rwa [String.toList_ofList]

end Path

/-! ## What a parse sees of the tree -/

theorem Alike.and_left {σ τ α : Type} {R : σ → τ → Prop} {P : σ → Prop}
    {r : EStateM.Result Fault σ α} {r' : EStateM.Result Fault τ α} (H : Alike R r r')
    (hend : P (Desk.endState r)) : Alike (fun s t => R s t ∧ P s) r r' := by
  cases H with
  | ok h => exact .ok ⟨h, hend⟩
  | error h => exact .error ⟨h, hend⟩

namespace Workspace

variable {σ χ : Type}

/-- The paths at which a parse looks for files. -/
def lookedAt (base : String) : List String :=
  Constituent.shx.paths base ++ Constituent.shp.paths base

theorem paths_subset_lookedAt (base : String) (c : Constituent) : c.paths base ⊆ lookedAt base := by
  cases c with
  | shp => exact List.subset_append_right _ _
  | shx => exact List.subset_append_left _ _

/-- Every file that the log tells to be opened is at one of the paths. -/
def OpenedWithin (paths : Set String) (w : Workspace σ χ) : Prop :=
  ∀ path, Entry.opened path ∈ w.log → path ∈ paths

/-- The same workspace, with a tree in which the same is found at the paths. -/
def FoundAlike (paths : List String) (w v : Workspace σ χ) : Prop :=
  ∃ tree : FileTree, v = { w with tree } ∧ ∀ path ∈ paths, tree.open? path = w.tree.open? path

/-- A parse looks for files at these paths only. -/
structure LooksOnlyAt (paths : List String) (parse : Consumer σ χ → Action σ χ Unit) : Prop where
  /-- The files that are opened at other paths are those that the consumer opens. -/
  opened : ∀ (consumer : Consumer σ χ) (others : Set String), (∀ path ∈ paths, path ∈ others) →
    (∀ shape, Preserves (OpenedWithin others) (consumer shape)) →
    Preserves (OpenedWithin others) (parse consumer)
  /-- What is at other paths makes no difference, unless it does to the consumer. -/
  found : ∀ consumer : Consumer σ χ,
    (∀ shape, Simulates (FoundAlike paths) (consumer shape) (consumer shape)) →
    Simulates (FoundAlike paths) (parse consumer) (parse consumer)

/-- The base path of the session is the one given. -/
def Based (base : String) (w : Workspace σ χ) : Prop := w.session.basePath = base

theorem openConstituent_basePath {base : String} (c : Constituent) :
    Preserves (Based (σ := σ) (χ := χ) base) (openConstituent c) := by
  intro w h
  simp only [openConstituent]
  split
  · exact h
  · cases w.tree.open? (w.session.basePath ++ "." ++ c.extension) with
    | ok file => exact h
    | error cause =>
      cases w.tree.open? (w.session.basePath ++ "." ++ c.upperExtension) <;> exact h

variable [Source σ]

theorem checkIndex_basePath {base : String} :
    Preserves (Based (σ := σ) (χ := χ) base) checkIndex := by
  intro w h
  simp only [checkIndex]
  split
  · exact h
  · rename_i handle _
    have hread := (congrArg Session.basePath (header_read_untouched w handle).session).trans h
    cases hr : Header.read (feed handle) w with
    | ok header v | error f v =>
      rw [hr] at hread
      exact hread

section
variable {R : Workspace σ χ → Workspace σ χ → Prop} (H : Tandem R) {path : String}
  (hfound : ∀ {w v}, R w v → ∀ q ∈ lookedAt (Path.basePath path), v.tree.open? q = w.tree.open? q)
  (hopened : ∀ {w v}, R w v → ∀ q ∈ lookedAt (Path.basePath path), ∀ file,
    R (w.addFile q file).2 (v.addFile q file).2)
include H hfound hopened

/-- Two workspaces that look alike at these paths stay alike. -/
theorem load_tandem : Simulates R (load path) (load path) := by
  have hopens (c : Constituent) :
      Simulates (fun w v => R w v ∧ Based (Path.basePath path) w)
        (openConstituent c) (openConstituent c) := by
    intro w v ⟨h, hbase⟩
    have hpaths : c.paths w.session.basePath ⊆ lookedAt (Path.basePath path) :=
      hbase ▸ paths_subset_lookedAt _ c
    exact (openConstituent_alike H h (fun q hq => hfound h q (hpaths hq))
      fun q hq => hopened h q (hpaths hq)).and_left (openConstituent_basePath c hbase)
  have hkept {f : Session → Session} (hf : Session.IsMinor f)
      (hbase : ∀ s, (f s).basePath = s.basePath) :
      Simulates (fun w v => R w v ∧ Based (Path.basePath path) w)
        (modify (·.updateSession f) : Action σ χ PUnit) (modify (·.updateSession f)) :=
    fun w v h => .ok ⟨H.updated h.1 hf, (hbase w.session).trans h.2⟩
  have hchecked : Simulates (fun w v => R w v ∧ Based (Path.basePath path) w)
      (checkIndex : Action σ χ Unit) checkIndex :=
    fun w v h => (checkIndex_simulates H h.1).and_left (checkIndex_basePath h.2)
  intro w v h
  have hnamed : R (w.updateSession ({ · with basePath := Path.basePath path }))
      (v.updateSession ({ · with basePath := Path.basePath path })) := H.updated h {}
  have hloaded := (hopens .shx).bind fun shx =>
    (hkept (f := ({ · with shx := some shx })) {} fun _ => rfl).bind fun _ =>
    hchecked.bind fun _ => (hopens .shp).bind fun shp =>
    hkept (f := ({ · with shp := some shp })) {} fun _ => rfl
  exact (hloaded ⟨hnamed, rfl⟩).mono fun _ _ h => h.1

/-- The tree is not looked at again. -/
theorem parse_tandem
    (hupdated : ∀ {w v} f, R w v → R (w.updateSession f) (v.updateSession f))
    (hreleased : ∀ {w v}, R w v → R w.release v.release) {consumer : Consumer σ χ}
    (C : ∀ shape, Simulates R (consumer shape) (consumer shape)) :
    Simulates R (parse path consumer) (parse path consumer) := by
  intro w v h
  have hconcluded {u v : Workspace σ χ} (o : Except Fault Unit) (h : R u v) :
      R (u.concluded o) (v.concluded o) := by
    cases o with
    | ok a => exact hreleased h
    | error f => exact hreleased (hupdated (.record f) h)
  exact parsing_alike hconcluded ((load_tandem H hfound hopened).bind
    (fun _ => readRecords_simulates H (fun n h => hupdated _ h) C) (hupdated .forget h))

end

theorem foundAlike_tandem (paths : List String) :
    Tandem (FoundAlike (σ := σ) (χ := χ) paths) where
  files := fun ⟨_, hv, _⟩ => hv ▸ rfl
  streams := fun ⟨_, hv, _⟩ => hv ▸ rfl
  session := fun ⟨_, hv, _⟩ => hv ▸ rfl
  updated := fun ⟨tree, hv, hpaths⟩ _ => ⟨tree, hv ▸ rfl, hpaths⟩
  noted := fun _ _ ⟨tree, hv, hpaths⟩ => ⟨tree, hv ▸ rfl, hpaths⟩
  fileRead := fun _ ⟨tree, hv, hpaths⟩ _ => ⟨tree, hv ▸ rfl, hpaths⟩
  streamRead := fun _ ⟨tree, hv, hpaths⟩ _ => ⟨tree, hv ▸ rfl, hpaths⟩

theorem openedWithin_tandem (paths : Set String) :
    Tandem (Alongside (OpenedWithin (σ := σ) (χ := χ) paths)) where
  files := fun ⟨hv, _⟩ => hv ▸ rfl
  streams := fun ⟨hv, _⟩ => hv ▸ rfl
  session := fun ⟨hv, _⟩ => hv ▸ rfl
  updated := fun ⟨hv, hlog⟩ _ => ⟨hv ▸ rfl, hlog⟩
  noted := by
    rintro w _ entry hentry ⟨rfl, hlog⟩
    refine ⟨rfl, fun path hpath => ?_⟩
    rcases List.mem_cons.mp hpath with heq | hpath
    · cases heq
      exact nomatch hentry
    · exact hlog path hpath
  fileRead := fun _ ⟨hv, hlog⟩ _ => ⟨hv ▸ rfl, hlog⟩
  streamRead := fun _ ⟨hv, hlog⟩ _ => ⟨hv ▸ rfl, hlog⟩

theorem parse_looksOnlyAt (path : String) :
    LooksOnlyAt (lookedAt (Path.basePath path))
      (parse path : Consumer σ χ → Action σ χ Unit) where
  opened consumer paths hpaths C := by
    refine .of_simulates (parse_tandem (openedWithin_tandem paths) (fun h _ _ => h.1 ▸ rfl) ?_
      (fun f h => ⟨h.1 ▸ rfl, h.2⟩) (fun h => ⟨h.1 ▸ rfl, h.2⟩) fun shape => (C shape).simulates)
    rintro w _ ⟨rfl, hlog⟩ q hq file
    refine ⟨rfl, fun path hpath => ?_⟩
    rcases List.mem_cons.mp hpath with heq | hpath
    · cases heq
      exact hpaths q hq
    · exact hlog path hpath
  found consumer C := by
    refine parse_tandem (foundAlike_tandem _) ?_ ?_ ?_ ?_ C
    · rintro w _ ⟨tree, rfl, hpaths⟩
      exact hpaths
    · rintro w _ ⟨tree, rfl, hpaths⟩ q _ file
      exact ⟨tree, rfl, hpaths⟩
    · rintro w _ f ⟨tree, rfl, hpaths⟩
      exact ⟨tree, rfl, hpaths⟩
    · rintro w _ ⟨tree, rfl, hpaths⟩
      exact ⟨tree, rfl, hpaths⟩

theorem parse_of_basePath {path path' : String} (h : Path.basePath path = Path.basePath path') :
    (parse path : Consumer σ χ → Action σ χ Unit) = parse path' := by
  funext consumer
  simp only [parse, load, h]

/-- Two parses are the same if their paths differ in the extension only, and so is the parse whose
path has none if no dot could be taken for the one before an extension. They look for no files but
the four whose names are made of what is before the extension. What is taken from any path is
nothing, or a dot and an extension. -/
theorem parse_extension :
    (∀ p e₁ e₂ : String, Path.IsNamed p.toList → Path.IsExtension e₁.toList →
      Path.IsExtension e₂.toList →
      (parse (p ++ "." ++ e₁) : Consumer σ χ → Action σ χ Unit) = parse (p ++ "." ++ e₂) ∧
      LooksOnlyAt (lookedAt p) (parse (p ++ "." ++ e₁) : Consumer σ χ → Action σ χ Unit) ∧
      (Path.IsBare p.toList →
        (parse p : Consumer σ χ → Action σ χ Unit) = parse (p ++ "." ++ e₁))) ∧
    ∀ path : String, ∃ rest, path = Path.basePath path ++ rest ∧
      (rest = "" ∨ ∃ e : String, Path.IsExtension e.toList ∧ rest = "." ++ e) := by
  refine ⟨fun p e₁ e₂ named he₁ he₂ => ?_, Path.basePath_append_rest⟩
  have hbase₁ : Path.basePath (p ++ "." ++ e₁) = p := Path.basePath_append named he₁
  have hbase₂ : Path.basePath (p ++ "." ++ e₂) = p := Path.basePath_append named he₂
  refine ⟨parse_of_basePath (hbase₁.trans hbase₂.symm), ?_, fun hbare => ?_⟩
  · have hlooks := parse_looksOnlyAt (σ := σ) (χ := χ) (p ++ "." ++ e₁)
    rwa [hbase₁] at hlooks
  · exact parse_of_basePath ((Path.basePath_eq_self hbare).trans hbase₁.symm)

/-- A hidden name in a directory with a dot, with an extension, with an empty one and with none. -/
theorem parse_extension_hidden_name :
    let counting : Consumer Plain Nat := fun _ w => .ok true (w.withMemo (w.memo + 1))
    let four := ["data.v2/..roads.shx", "data.v2/..roads.SHX", "data.v2/..roads.shp",
      "data.v2/..roads.SHP"]
    parse "data.v2/..roads.shp" counting = parse "data.v2/..roads." counting ∧
      parse "data.v2/..roads" counting = parse "data.v2/..roads.shp" counting ∧
      Preserves (OpenedWithin {path | path ∈ four}) (parse "data.v2/..roads.shp" counting) ∧
      Simulates (FoundAlike four) (parse "data.v2/..roads.shp" counting)
        (parse "data.v2/..roads.shp" counting) := by
  intro counting four
  obtain ⟨hsame, hlooks, hplain⟩ := (parse_extension (σ := Plain) (χ := Nat)).1
    "data.v2/..roads" "shp" "" (by decide) (by decide) (by decide)
  have hfour : lookedAt "data.v2/..roads" = four := by decide
  rw [hfour] at hlooks
  refine ⟨congrFun hsame counting, congrFun (hplain (by decide)) counting,
    hlooks.opened counting _ (fun path h => h) fun shape w h => h,
    hlooks.found counting fun shape => ?_⟩
  rintro w _ ⟨tree, rfl, hpaths⟩
  exact .ok ⟨tree, rfl, hpaths⟩

end Workspace
end Shapefile
