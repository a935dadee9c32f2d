import Stencil.Proofs.Disk.Following

namespace Stencil

open Ascii Text

namespace Disk

variable {d d' : Disk} {cwd here loc : Location}

theorem entryAt_eq_ok_iff {p : Text} {e : Entry} :
    d.entryAt cwd p = .ok e ↔ ∃ loc, d.resolve cwd p = .ok loc ∧ d.find? loc = some e := by
  cases hresolve : d.resolve cwd p with
  | error f => simp [entryAt, hresolve, bind, Except.bind]
  | ok loc =>
    rw [entryAt_of_resolve hresolve]
    cases hfind : d.find? loc <;> simp [hfind]

def Grown (d d' : Disk) : Prop :=
  ∀ l, d'.find? l = d.find? l ∨ d.find? l = none ∧ d'.find? l = some .directory

namespace Grown

theorem refl (d : Disk) : d.Grown d := fun _ => .inl rfl

theorem trans {d'' : Disk} (h : d.Grown d') (h' : d'.Grown d'') : d.Grown d'' := by
  intro l
  rcases h' l with hsame | ⟨hnone, hdir⟩
  · rw [hsame]
    exact h l
  · rcases h l with hsame | ⟨-, hdir'⟩
    · exact .inr ⟨hsame.symm.trans hnone, hdir⟩
    · rw [hnone] at hdir'
      cases hdir'

theorem within (h : d.Grown d') : d.Within d' := by
  intro l hl
  rcases h l with hsame | ⟨hnone, hdir⟩
  · rw [hsame, hl]
  · exact hdir

theorem put (h : d.find? loc = none) : d.Grown (d.put loc .directory) := by
  have hne : loc ≠ [] := by
    rintro rfl
    cases h
  intro l
  rw [find?_put hne]
  split
  next heq => exact .inr ⟨heq ▸ h, rfl⟩
  · exact .inl rfl

end Grown

theorem makeDirectory_ok {p : Text} (h : d.makeDirectory cwd p = .ok d') :
    d.Grown d' ∧ d'.entryAt cwd p = .ok .directory := by
  unfold makeDirectory at h
  dsimp only at h
  split at h
  · cases h
  next loc hresolve =>
    split at h
    · cases h
    next hnew =>
      cases h
      have hfree : d.find? loc = none := by simpa using hnew
      have hgrown := Grown.put hfree
      have hmade : (d.put loc .directory).find? loc = some .directory := by
        rw [find?_put, if_pos rfl]
        rintro rfl
        cases hfree
      refine ⟨hgrown, entryAt_eq_ok_iff.mpr ⟨loc, ?_, hmade⟩⟩
      have hbare := hgrown.within.resolve hresolve
      split at hbare
      · exact hbare
      · obtain ⟨k, hk, -⟩ := dropEndWhile_eq slash p
        rw [hk]
        exact resolve_append_slashes hbare hmade k

theorem makeIfMissing_grown (d : Disk) (cwd : Location) (p : Text) :
    d.Grown (d.makeIfMissing cwd p).2 := by
  unfold makeIfMissing
  split
  next made hmade => exact (makeDirectory_ok hmade).1
  · split <;> exact Grown.refl d

theorem makeIfMissing_ok {p : Text} (h : (d.makeIfMissing cwd p).1.isOk = true) :
    (d.makeIfMissing cwd p).2.entryAt cwd p = .ok .directory := by
  unfold makeIfMissing at h ⊢
  split
  next made hmade => exact (makeDirectory_ok hmade).2
  next e hmade =>
    rw [hmade] at h
    dsimp only at h
    split
    next hthere =>
      cases hentry : d.entryAt cwd p with
      | error f => simp [hentry, Except.toOption] at hthere
      | ok e => simpa [hentry, Except.toOption] using hthere
    next hthere =>
      rw [if_neg hthere] at h
      cases h

theorem makeDirectories_grown (d : Disk) (cwd : Location) (p : Text) :
    d.Grown (d.makeDirectories cwd p).2 := by
  fun_induction makeDirectories d cwd p with
  | case1 | case2 => exact Grown.refl d
  | case3 => exact makeIfMissing_grown _ _ _
  | case4 p _ _ q _ _ _ above hmade ih =>
    rw [hmade] at ih
    exact ih.trans (makeIfMissing_grown above cwd p)
  | case5 p _ _ q _ _ e above hmade ih =>
    rw [hmade] at ih
    exact ih

theorem makeDirectories_ok {p : Text} (h : (d.makeDirectories cwd p).1.isOk = true) :
    (d.makeDirectories cwd p).2.entryAt cwd p = .ok .directory := by
  fun_induction makeDirectories d cwd p with
  | case1 _ hthere => exact hthere
  | case2 => cases h
  | case3 => exact makeIfMissing_ok h
  | case4 => exact makeIfMissing_ok h
  | case5 => cases h

theorem Sound.directory_above (hd : d.Sound) (hdir : d.find? here = some .directory) :
    d.find? here.dropLast = some .directory := by
  obtain rfl | ⟨upper, last, rfl⟩ := List.eq_nil_or_concat here
  · rfl
  · rw [List.concat_eq_append] at hdir ⊢
    rw [List.dropLast_concat]
    exact (hd _ (by rw [hdir]; rfl)).above rfl (by simp)

theorem child_of_walk {name : Text} (hd : d.Sound) (hwalk : d.walk here [name] = .ok loc)
    (hloc : d.find? loc ≠ some .directory) :
    Path.isValidPart name = true ∧ name.length ≤ 255 ∧ loc = here ++ [name] := by
  have hdir := directory_of_walk (by simp) hwalk
  rcases walk_part hwalk with ⟨-, rfl⟩ | ⟨-, rfl⟩ | hchild
  · exact absurd hdir hloc
  · exact absurd (hd.directory_above hdir) hloc
  · exact hchild

theorem createFile_eq_ok_iff {p : Text} :
    d.createFile cwd p = .ok d' ↔
      ∃ loc, d.resolve cwd p = .ok loc ∧ d.find? loc = none ∧ d' = d.put loc (.file []) := by
  unfold createFile
  cases hresolve : d.resolve cwd p with
  | error f => simp
  | ok loc => cases hfind : d.find? loc <;> simp [hfind, eq_comm]

section

variable {source target : Text} {old new : Location} {content : Text}

theorem Sound.nothing_below (hd : d.Sound) (hloc : d.find? loc ≠ some .directory)
    {rest : Location} (hrest : rest ≠ []) : d.find? (loc ++ rest) = none := by
  rw [Option.eq_none_iff_forall_ne_some]
  intro e he
  have hleads := hd (loc ++ rest) (by rw [he]; rfl)
  exact hloc (hleads.above rfl hrest)

theorem find?_move_file (hd : d.Sound) (hold : d.find? old = some (.file content))
    (hnew : d.find? new ≠ some .directory) (hmoves : old ≠ new) (l : Location) :
    (d.move old new).find? l =
      if l = new then some (.file content) else if l = old then none else d.find? l := by
  have hfile : d.find? old ≠ some .directory := by simp [hold]
  have hne : old ≠ [] := ne_nil_of_find? hfile
  have hne' : new ≠ [] := ne_nil_of_find? hnew
  rw [find?_move hne hne']
  cases hbelow : Location.below? new l with
  | some rest =>
    rw [Location.below?_eq_some_iff] at hbelow
    dsimp only
    rw [find?_eraseTree hne']
    by_cases hrest : rest = []
    · subst hrest
      rw [List.append_nil] at hbelow ⊢
      -- the file is not below its new place, where there is no directory
      have hapart : Location.below? new old = none := by
        rw [Location.below?_eq_none_iff]
        rintro rest rfl
        have hrest : rest ≠ [] := by
          rintro rfl
          simp at hmoves
        have hnone := hd.nothing_below hnew hrest
        rw [hold] at hnone
        cases hnone
      rw [if_pos hbelow, hapart, ← hold]
      rfl
    · have hl : l ≠ new := by
        rintro rfl
        simp at hbelow
        exact hrest hbelow
      have hnone : d.find? l = none := by
        rw [hbelow]
        exact hd.nothing_below hnew hrest
      rw [if_neg hl, hnone, hd.nothing_below hfile hrest]
      simp
  | none =>
    have hl : l ≠ new := by
      rintro rfl
      exact Location.below?_eq_none_iff.mp hbelow [] (by simp)
    rw [if_neg hl]
    dsimp only
    by_cases hsame : l = old
    · have hself : Location.below? old old = some [] := Location.below?_eq_some_iff.mpr (by simp)
      rw [if_pos hsame, hsame, hself]
      rfl
    · rw [if_neg hsame]
      cases hunder : Location.below? old l with
      | none => rfl
      | some rest =>
        rw [Location.below?_eq_some_iff] at hunder
        rw [if_neg (by simp), hunder, hd.nothing_below hfile]
        rintro rfl
        simp at hunder
        exact hsame hunder

theorem rename_file (hold : d.resolve cwd source = .ok old)
    (hfile : d.find? old = some (.file content)) (hnew : d.resolve cwd target = .ok new)
    (hfree : d.find? new ≠ some .directory) (hd : d.Sound) (hne : old ≠ new) :
    d.rename cwd source target = .ok (d.move old new) := by
  unfold rename
  rw [hold, hnew]
  simp only [Except.mapError, bind, Except.bind, hfile]
  cases hfind : d.find? new with
  | none =>
    have hapart : Location.below? old new = none := by
      rw [Location.below?_eq_none_iff]
      rintro rest rfl
      have hleads := leads_of_resolve hd hnew
      have hdir := hleads.above rfl (by rintro rfl; simp at hne)
      rw [hfile] at hdir
      cases hdir
    simp [hapart, pure, Except.pure]
  | some e =>
    cases e with
    | directory => exact absurd hfind hfree
    | file other => simp [Entry.isDirectory, hne, pure, Except.pure]

theorem rename_missing (hold : d.resolve cwd source = .ok old) (hnone : d.find? old = none) :
    d.rename cwd source target = .error ⟨utf8 "rename", [source, target], .missing⟩ := by
  unfold rename
  rw [hold]
  simp only [Except.mapError, bind, Except.bind, hnone]
  rfl

theorem rename_onto_directory (hold : d.resolve cwd source = .ok old)
    (hfile : d.find? old = some (.file content)) (hnew : d.resolve cwd target = .ok new)
    (hdir : d.find? new = some .directory) :
    d.rename cwd source target = .error ⟨utf8 "rename", [source, target], .alreadyThere⟩ := by
  unfold rename
  rw [hold, hnew]
  simp only [Except.mapError, bind, Except.bind, hfile, hdir]
  rfl

end

end Disk

end Stencil
