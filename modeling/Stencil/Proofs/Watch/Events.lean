import Stencil.Proofs.Disk.Changing
import Stencil.Proofs.Disk.Walking
import Stencil.Watch.Basic

namespace Stencil

open Ascii Text

namespace Watch

inductive Outcome (d : Disk) (cwd : Location) : Change → Disk → List Event → Prop where
  | idle {c events} : (∀ e ∈ events, e.kind = .chmod ∧ d.Leads e.location) →
      Outcome d cwd c d events
  | written {path content loc made} : d.Leads loc → d.find? loc ≠ some .directory →
      (∀ e ∈ made, e = ⟨.create, loc⟩) →
      Outcome d cwd (.write path content) (d.put loc (.file content)) (made ++ [⟨.write, loc⟩])
  | made {path loc} : d.Leads loc → d.find? loc = none →
      Outcome d cwd (.makeDirectory path) (d.put loc .directory) [⟨.create, loc⟩]
  | removed {path loc} : d.Leads loc →
      Outcome d cwd (.remove path) (d.eraseTree loc)
        ((d.tree (fun _ => false) loc).reverse.map fun p => ⟨.remove, p.1⟩)
  | moved {source target old new} : d.resolve cwd source = .ok old →
      d.resolve cwd target = .ok new → (d.find? old).isSome = true → d.find? new ≠ some .directory →
      old ≠ [] → Location.below? old new = none →
      Outcome d cwd (.rename source target) (d.move old new) [⟨.rename, old⟩, ⟨.create, new⟩]

/-- A rename moves a directory, and the place is below it before or after. -/
def MovesAlong (d : Disk) (cwd : Location) (c : Change) (f : Location) : Prop :=
  ∃ source target old new rest, c = .rename source target ∧ d.resolve cwd source = .ok old ∧
    d.resolve cwd target = .ok new ∧ d.find? old = some .directory ∧ rest ≠ [] ∧
    (f = old ++ rest ∨ f = new ++ rest)

variable {d d' : Disk} {cwd : Location} {c : Change} {events : List Event}

theorem effect_outcome (hd : d.Sound) (cwd : Location) (c : Change) :
    Outcome d cwd c (effect d cwd c).1 (effect d cwd c).2 := by
  have hidle : Outcome d cwd c d [] := .idle (by simp)
  cases c with
  | write path content =>
    rw [effect]
    split
    next loc made hresolve hwrite =>
      rw [Disk.writeFile, hresolve] at hwrite
      dsimp only at hwrite
      split at hwrite
      · cases hwrite
      next hfile =>
        cases hwrite
        refine .written (Disk.leads_of_resolve hd hresolve) hfile ?_
        split <;> simp
    · exact hidle
  | remove path =>
    rw [effect]
    split
    next loc hresolve => exact .removed (Disk.leads_of_resolve hd hresolve)
    · exact hidle
  | rename source target =>
    rw [effect]
    split
    next old new renamed hold hnew hrename =>
      obtain ⟨old', new', hold', hnew', hthere, hfile, h⟩ := Disk.rename_ok hd hrename
      rw [hold] at hold'
      rw [hnew] at hnew'
      cases hold'
      cases hnew'
      rcases h with ⟨rfl, rfl⟩ | ⟨hother, hne, hapart, rfl⟩
      · rw [if_pos rfl]
        exact hidle
      · rw [if_neg hother]
        exact .moved hold hnew hthere hfile hne hapart
    · exact hidle
  | chmod path =>
    rw [effect]
    split
    next loc hresolve =>
      refine .idle ?_
      split
      · simpa using Disk.leads_of_resolve hd hresolve
      · simp
    · exact hidle
  | makeDirectory path =>
    rw [effect]
    split
    next loc made hresolve hmake =>
      unfold Disk.makeDirectory at hmake
      dsimp only at hmake
      rw [hresolve] at hmake
      dsimp only at hmake
      split at hmake
      · cases hmake
      next hfree =>
        cases hmake
        exact .made (Disk.leads_of_resolve hd hresolve) (by simpa using hfree)
    · exact hidle

namespace Outcome

theorem sound (h : Outcome d cwd c d' events) (hd : d.Sound) : d'.Sound := by
  cases h with
  | idle => exact hd
  | written hleads hfile => exact hd.put hleads hfile _
  | made hleads hfree => exact hd.put hleads (by simp [hfree]) _
  | removed => exact hd.eraseTree _
  | moved hold hnew hthere hfile hne hapart =>
    exact hd.move hne (Disk.leads_of_resolve hd hnew) hfile hapart

theorem leads (h : Outcome d cwd c d' events) (hd : d.Sound) {e : Event} (he : e ∈ events) :
    d.Leads e.location := by
  cases h with
  | idle hchmod => exact (hchmod e he).2
  | written hleads hfile hmade =>
    rcases List.mem_append.mp he with he | he
    · rw [hmade e he]
      exact hleads
    · rw [List.mem_singleton.mp he]
      exact hleads
  | made hleads hfree =>
    rw [List.mem_singleton.mp he]
    exact hleads
  | removed hleads =>
    obtain ⟨p, hp, rfl⟩ := List.mem_map.mp he
    exact Disk.leads_of_mem_tree hd hleads (List.mem_reverse.mp hp)
  | moved hold hnew hthere =>
    simp only [List.mem_cons, List.not_mem_nil, or_false] at he
    rcases he with rfl | rfl
    · exact hd _ hthere
    · exact Disk.leads_of_resolve hd hnew

theorem created (h : Outcome d cwd c d' events) {l : Location}
    (hl : d'.find? l = some .directory) (hnew : d.find? l ≠ some .directory) :
    ∃ loc rest, l = loc ++ rest ∧ ⟨.create, loc⟩ ∈ events ∧ d.find? loc ≠ some .directory := by
  cases h with
  | idle => exact absurd hl hnew
  | written hleads hfile =>
    rw [Disk.find?_put (Disk.ne_nil_of_find? hfile)] at hl
    split at hl
    · cases hl
    · exact absurd hl hnew
  | @made path loc hleads hfree =>
    have hfile : d.find? loc ≠ some .directory := by simp [hfree]
    rw [Disk.find?_put (Disk.ne_nil_of_find? hfile)] at hl
    split at hl
    next heq => exact ⟨loc, [], by simp [heq], by simp, hfile⟩
    · exact absurd hl hnew
  | removed hleads =>
    rw [Disk.find?_eraseTree_of_ne (Disk.ne_nil_of_find? hnew)] at hl
    split at hl
    · exact absurd hl hnew
    · cases hl
  | @moved source target old new hold hnew' hthere hfile hold' hapart =>
    rw [Disk.find?_move hold' (Disk.ne_nil_of_find? hfile)] at hl
    split at hl
    next rest hbelow =>
      rw [Location.below?_eq_some_iff] at hbelow
      exact ⟨new, rest, hbelow, by simp, hfile⟩
    · split at hl
      · exact absurd hl hnew
      · cases hl

theorem told (h : Outcome d cwd c d' events) (hd : d.Sound) {f : Location}
    (hf : d'.find? f ≠ d.find? f) (halone : ¬ MovesAlong d cwd c f) :
    ∃ e ∈ events, e.location = f ∧ e.kind ≠ .chmod := by
  cases h with
  | idle => exact absurd rfl hf
  | @written path content loc made hleads hfile =>
    rw [Disk.find?_put (Disk.ne_nil_of_find? hfile)] at hf
    split at hf
    next heq => exact ⟨⟨.write, loc⟩, by simp, heq.symm, by simp⟩
    · exact absurd rfl hf
  | @made path loc hleads hfree =>
    have hfile : d.find? loc ≠ some .directory := by simp [hfree]
    rw [Disk.find?_put (Disk.ne_nil_of_find? hfile)] at hf
    split at hf
    next heq => exact ⟨⟨.create, loc⟩, by simp, heq.symm, by simp⟩
    · exact absurd rfl hf
  | @removed path loc hleads =>
    have hroot : f ≠ [] := by
      rintro rfl
      exact hf rfl
    rw [Disk.find?_eraseTree_of_ne hroot] at hf
    split at hf
    · exact absurd rfl hf
    next hbelow =>
      obtain ⟨rest, hrest⟩ :=
        Option.ne_none_iff_exists'.mp (mt Option.isNone_iff_eq_none.mpr hbelow)
      rw [Location.below?_eq_some_iff] at hrest
      obtain ⟨e, he⟩ := Option.ne_none_iff_exists'.mp (Ne.symm hf)
      have hmem := @Disk.mem_tree _ _ _ _ (fun _ => false) hd (hrest ▸ he) (by simp)
      refine ⟨⟨.remove, f⟩, ?_, rfl, by simp⟩
      exact List.mem_map.mpr ⟨(loc ++ rest, e), List.mem_reverse.mpr hmem, by rw [hrest]⟩
  | @moved source target old new hold hnew hthere hfile hold' hapart =>
    -- below the two places there is nothing unless a directory is moved
    have hbelow {rest : Location} (hrest : rest ≠ []) (hplace : f = old ++ rest ∨ f = new ++ rest) :
        d.find? (old ++ rest) = none := by
      by_cases hdir : d.find? old = some .directory
      · exact absurd ⟨source, target, old, new, rest, rfl, hold, hnew, hdir, hrest, hplace⟩ halone
      · exact hd.nothing_below hdir hrest
    rw [Disk.find?_move hold' (Disk.ne_nil_of_find? hfile)] at hf
    split at hf
    next rest hrest =>
      rw [Location.below?_eq_some_iff] at hrest
      by_cases hnil : rest = []
      · exact ⟨⟨.create, new⟩, by simp, by simp [hrest, hnil], by simp⟩
      · rw [Disk.find?_eraseTree_of_ne (by simp [hold']), hbelow hnil (.inr hrest), hrest,
          hd.nothing_below hfile hnil] at hf
        simp at hf
    · split at hf
      · exact absurd rfl hf
      next hunder =>
        obtain ⟨rest, hrest⟩ :=
          Option.ne_none_iff_exists'.mp (mt Option.isNone_iff_eq_none.mpr hunder)
        rw [Location.below?_eq_some_iff] at hrest
        by_cases hnil : rest = []
        · exact ⟨⟨.rename, old⟩, by simp, by simp [hrest, hnil], by simp⟩
        · have hnone := hbelow hnil (.inl hrest)
          rw [← hrest] at hnone
          exact absurd hnone.symm hf

end Outcome

end Watch

end Stencil
