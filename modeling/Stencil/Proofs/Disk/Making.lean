import Stencil.Proofs.Disk.Routes

namespace Stencil

open Ascii Text

namespace Disk

variable {d d' : Disk} {cwd start : Location} {rooted : Bool} {ns : List Text} {name : Text}

section Making

variable {ups : Nat} {f : Fault}

theorem makeDirectories_there (h : d.entryAt cwd name = .ok .directory) :
    d.makeDirectories cwd name = (.ok (), d) := by
  unfold makeDirectories
  rw [h]

theorem makeDirectories_file {content : Text} (h : d.entryAt cwd name = .ok (.file content)) :
    d.makeDirectories cwd name = (.error ⟨utf8 "mkdir", [name], .notDirectory⟩, d) := by
  unfold makeDirectories
  rw [h]

theorem makeDirectories_start (hbase : Base d rooted cwd ups start) (hd : d.Sound) :
    d.makeDirectories cwd (route rooted ups []) = (.ok (), d) := by
  apply makeDirectories_there
  apply (hbase.entryAt_eq_ok_iff hd (List.forall_mem_nil _)).mpr
  rw [List.append_nil]
  exact hbase.directory

theorem parentPath?_route (hns : Names (ns ++ [name])) :
    parentPath? (route rooted ups (ns ++ [name])) =
      if List.replicate ups [dot, dot] ++ ns = [] then none else some (route rooted ups ns) := by
  have hparts := hns.named ups
  rw [← List.append_assoc] at hparts
  rw [route, ← List.append_assoc, parentPath?_ofParts hparts]
  rfl

theorem makeDirectories_above (hbase : Base d rooted cwd ups start) (hd : d.Sound)
    (hns : Names (ns ++ [name]))
    (h : d.entryAt cwd (route rooted ups (ns ++ [name])) = .error f) :
    (∀ above, d.makeDirectories cwd (route rooted ups ns) = (.ok (), above) →
      d.makeDirectories cwd (route rooted ups (ns ++ [name])) =
        above.makeIfMissing cwd (route rooted ups (ns ++ [name]))) ∧
    ∀ e above, d.makeDirectories cwd (route rooted ups ns) = (.error e, above) →
      d.makeDirectories cwd (route rooted ups (ns ++ [name])) = (.error e, above) := by
  have hparent := @parentPath?_route rooted ns name ups hns
  rw [makeDirectories.eq_def _ _ (route rooted ups (ns ++ [name])), h]
  dsimp only
  split
  next hnone =>
    rw [hparent] at hnone
    split at hnone
    next hempty =>
      -- there is no name above: the directory that would be made is there
      obtain ⟨hups, rfl⟩ := List.append_eq_nil_iff.mp hempty
      rw [makeDirectories_start hbase hd]
      constructor
      · intro above habove
        cases habove
        rfl
      · intro e above habove
        cases habove
    · cases hnone
  next q hq =>
    rw [hparent] at hq
    split at hq
    · cases hq
    · cases hq
      constructor
      · intro above habove
        rw [habove]
      · intro e above habove
        rw [habove]

theorem makeIfMissing_concat (hbase : Base d rooted cwd ups start) (hd : d.Sound)
    (hns : Names (ns ++ [name])) (hdir : d.find? (start ++ ns) = some .directory)
    (hfree : d.find? (start ++ (ns ++ [name])) = none) :
    d.makeIfMissing cwd (route rooted ups (ns ++ [name])) =
      if nul ∈ route rooted ups (ns ++ [name]) then
        (.error ⟨utf8 "mkdir", [route rooted ups (ns ++ [name])], .invalid⟩, d)
      else if 255 < name.length then
        (.error ⟨utf8 "mkdir", [route rooted ups (ns ++ [name])], .nameTooLong⟩, d)
      else (.ok (), d.put (start ++ (ns ++ [name])) .directory) := by
  have hparts := hns.named ups
  rw [← List.append_assoc] at hparts
  have hbare : dropEndWhile (· = slash) (route rooted ups (ns ++ [name])) =
      route rooted ups (ns ++ [name]) := by
    rw [route, ← List.append_assoc]
    exact dropEndWhile_ofParts hparts
  have hne : (route rooted ups (ns ++ [name])).isEmpty = false := by
    rw [List.isEmpty_eq_false_iff]
    exact Path.ofParts_ne_nil rooted _
  have hresolve := hbase.resolve_concat hd hns hdir
  rw [makeIfMissing, makeDirectory, hbare, hne, if_neg (by simp), entryAt]
  split at hresolve
  next hnul => simp [hresolve, hnul, bind, Except.bind, Except.toOption]
  next hnul =>
    split at hresolve
    next hlong => simp [hresolve, hnul, hlong, bind, Except.bind, Except.toOption]
    next hlong => simp [hresolve, hnul, hlong, hfree]

theorem find?_of_made {above : Disk} (hbase : Base d rooted cwd ups start) (hd : d.Sound)
    (hns : Names ns) (h : d.makeDirectories cwd (route rooted ups ns) = (.ok (), above)) :
    Base above rooted cwd ups start ∧ above.Sound ∧
      above.find? (start ++ ns) = some .directory := by
  have hsound := hd.makeDirectories cwd (route rooted ups ns)
  have hgrown := d.makeDirectories_grown cwd (route rooted ups ns)
  have hmade := @makeDirectories_ok d cwd (route rooted ups ns)
  rw [h] at hsound hgrown hmade
  have hbase' := hbase.within hgrown.within
  exact ⟨hbase', hsound, (hbase'.entryAt_eq_ok_iff hsound hns).mp (hmade rfl)⟩

theorem concat_ne {upper : List Text} (h : upper <+: ns) (start : Location) (name : Text) :
    start ++ (ns ++ [name]) ≠ start ++ upper := by
  intro heq
  have hlength := congrArg List.length (List.append_cancel_left heq)
  have hle := h.length_le
  rw [List.length_append, List.length_singleton] at hlength
  omega

theorem find?_of_entryAt_error (hbase : Base d rooted cwd ups start) (hd : d.Sound)
    (hns : Names ns) (h : d.entryAt cwd (route rooted ups ns) = .error f) :
    d.find? (start ++ ns) = none := by
  cases hfind : d.find? (start ++ ns) with
  | none => rfl
  | some e =>
    rw [(hbase.entryAt_eq_ok_iff hd hns).mpr hfind] at h
    cases h

theorem makeDirectories_others (hbase : Base d rooted cwd ups start) (hd : d.Sound)
    (hns : Names ns) {l : Location} (hl : ∀ upper, upper <+: ns → l ≠ start ++ upper) :
    (d.makeDirectories cwd (route rooted ups ns)).2.find? l = d.find? l := by
  induction ns using List.reverseRecOn generalizing l with
  | nil => rw [makeDirectories_start hbase hd]
  | append_singleton ns name ih =>
    have hrest : Names ns := fun part hpart => hns part (by simp [hpart])
    have hl' := ih hrest fun upper hupper => hl upper (hupper.trans (List.prefix_append _ _))
    cases hentry : d.entryAt cwd (route rooted ups (ns ++ [name])) with
    | ok e =>
      cases e with
      | directory => rw [makeDirectories_there hentry]
      | file content => rw [makeDirectories_file hentry]
    | error f =>
      obtain ⟨hmakes, hstops⟩ := makeDirectories_above hbase hd hns hentry
      have hnew := ih hrest fun upper hupper => concat_ne hupper start name
      rcases habove : d.makeDirectories cwd (route rooted ups ns) with ⟨e | ⟨⟩, above⟩
      · rw [habove] at hl'
        rw [hstops e above habove]
        exact hl'
      · obtain ⟨hbase', hsound, hdir⟩ := find?_of_made hbase hd hrest habove
        rw [habove] at hl' hnew
        rw [find?_of_entryAt_error hbase hd hns hentry] at hnew
        rw [hmakes above habove, makeIfMissing_concat hbase' hsound hns hdir hnew]
        split
        · exact hl'
        · split
          · exact hl'
          · refine (find?_put (by simp) _ _).trans ?_
            rw [if_neg (hl _ List.prefix_rfl)]
            exact hl'

theorem entryAt_error_of_find? (hbase : Base d rooted cwd ups start) (hd : d.Sound)
    (hns : Names ns) (h : d.find? (start ++ ns) = none) :
    ∃ f, d.entryAt cwd (route rooted ups ns) = .error f := by
  cases hentry : d.entryAt cwd (route rooted ups ns) with
  | error f => exact ⟨f, rfl⟩
  | ok e =>
    rw [(hbase.entryAt_eq_ok_iff hd hns).mp hentry] at h
    cases h

structure MakesAlike (d d' : Disk) (rooted : Bool) (cwd : Location) (ups : Nat) (start : Location)
    (ns : List Text) : Prop where
  result : (d.makeDirectories cwd (route rooted ups ns)).1 =
    (d'.makeDirectories cwd (route rooted ups ns)).1
  way : ∀ upper, upper <+: ns →
    (d.makeDirectories cwd (route rooted ups ns)).2.find? (start ++ upper) =
      (d'.makeDirectories cwd (route rooted ups ns)).2.find? (start ++ upper)

namespace MakesAlike

theorem of_there (hbase : Base d rooted cwd ups start) (hd : d.Sound) (hd' : d'.Sound)
    (hwithin : d.Within d') (hns : Names ns) {e : Entry} (hfind : d.find? (start ++ ns) = some e)
    (hfind' : d'.find? (start ++ ns) = some e) : MakesAlike d d' rooted cwd ups start ns := by
  have hentry := (hbase.entryAt_eq_ok_iff hd hns).mpr hfind
  have hentry' := ((hbase.within hwithin).entryAt_eq_ok_iff hd' hns).mpr hfind'
  have hplaces : ∀ upper, upper <+: ns → d.find? (start ++ upper) = d'.find? (start ++ upper) := by
    rintro upper ⟨rest, rfl⟩
    by_cases hrest : rest = []
    · rw [hrest, List.append_nil] at hfind hfind'
      rw [hfind, hfind']
    · rw [← List.append_assoc] at hfind
      have hdir := (hd _ (by rw [hfind]; rfl)).above rfl hrest
      rw [hdir, hwithin _ hdir]
  cases e with
  | directory =>
    have hmake := makeDirectories_there hentry
    have hmake' := makeDirectories_there hentry'
    exact ⟨by rw [hmake, hmake'], by simpa only [hmake, hmake'] using hplaces⟩
  | file content =>
    have hmake := makeDirectories_file hentry
    have hmake' := makeDirectories_file hentry'
    exact ⟨by rw [hmake, hmake'], by simpa only [hmake, hmake'] using hplaces⟩

section Concat

variable (h : MakesAlike d d' rooted cwd ups start ns) (hbase : Base d rooted cwd ups start)
  (hbase' : Base d' rooted cwd ups start) (hd : d.Sound) (hd' : d'.Sound)
  (hns : Names (ns ++ [name])) (hnone : d.find? (start ++ (ns ++ [name])) = none)

include h hbase hbase' hd hd' hns hnone

theorem concat_missing (hnone' : d'.find? (start ++ (ns ++ [name])) = none) :
    MakesAlike d d' rooted cwd ups start (ns ++ [name]) := by
  have hrest : Names ns := fun part hpart => hns part (by simp [hpart])
  have hapart : ∀ upper, upper <+: ns → start ++ (ns ++ [name]) ≠ start ++ upper :=
    fun upper hupper => concat_ne hupper start name
  obtain ⟨f, hentry⟩ := entryAt_error_of_find? hbase hd hns hnone
  obtain ⟨f', hentry'⟩ := entryAt_error_of_find? hbase' hd' hns hnone'
  obtain ⟨hmakes, hstops⟩ := makeDirectories_above hbase hd hns hentry
  obtain ⟨hmakes', hstops'⟩ := makeDirectories_above hbase' hd' hns hentry'
  have hnew := makeDirectories_others hbase hd hrest hapart
  have hnew' := makeDirectories_others hbase' hd' hrest hapart
  obtain ⟨hresult, hway⟩ := h
  rcases habove : d.makeDirectories cwd (route rooted ups ns) with ⟨r, above⟩
  rcases habove' : d'.makeDirectories cwd (route rooted ups ns) with ⟨r', above'⟩
  rw [habove, habove'] at hresult hway
  rw [habove, hnone] at hnew
  rw [habove', hnone'] at hnew'
  have hplaces : ∀ upper, upper <+: ns ++ [name] →
      above.find? (start ++ upper) = above'.find? (start ++ upper) := by
    intro upper hupper
    rcases List.prefix_concat_iff.mp hupper with rfl | hupper
    · exact hnew.trans hnew'.symm
    · exact hway upper hupper
  dsimp only at hresult
  subst hresult
  cases r with
  | error e =>
    have hmake := hstops e above habove
    have hmake' := hstops' e above' habove'
    exact ⟨by rw [hmake, hmake'], by simpa only [hmake, hmake'] using hplaces⟩
  | ok done =>
    obtain ⟨hmadeBase, hsound, hdir⟩ := find?_of_made hbase hd hrest habove
    obtain ⟨hmadeBase', hsound', hdir'⟩ := find?_of_made hbase' hd' hrest habove'
    have hmake := hmakes above habove
    have hmake' := hmakes' above' habove'
    rw [makeIfMissing_concat hmadeBase hsound hns hdir hnew] at hmake
    rw [makeIfMissing_concat hmadeBase' hsound' hns hdir' hnew'] at hmake'
    split at hmake
    next hnul =>
      rw [if_pos hnul] at hmake'
      exact ⟨by rw [hmake, hmake'], by simpa only [hmake, hmake'] using hplaces⟩
    next hnul =>
      rw [if_neg hnul] at hmake'
      split at hmake
      next hlong =>
        rw [if_pos hlong] at hmake'
        exact ⟨by rw [hmake, hmake'], by simpa only [hmake, hmake'] using hplaces⟩
      next hlong =>
        rw [if_neg hlong] at hmake'
        refine ⟨by rw [hmake, hmake'], fun upper hupper => ?_⟩
        rw [hmake, hmake', find?_put (by simp), find?_put (by simp), hplaces upper hupper]

theorem concat_made (hdir' : d'.find? (start ++ (ns ++ [name])) = some .directory) :
    MakesAlike d d' rooted cwd ups start (ns ++ [name]) := by
  have hrest : Names ns := fun part hpart => hns part (by simp [hpart])
  have hapart : ∀ upper, upper <+: ns → start ++ (ns ++ [name]) ≠ start ++ upper :=
    fun upper hupper => concat_ne hupper start name
  have hleads := hd' _ (by rw [hdir']; rfl)
  have habovedir : d'.find? (start ++ ns) = some .directory :=
    hleads.above (List.append_assoc ..).symm (by simp)
  have hmake' := makeDirectories_there ((hbase'.entryAt_eq_ok_iff hd' hns).mpr hdir')
  have habove' := makeDirectories_there ((hbase'.entryAt_eq_ok_iff hd' hrest).mpr habovedir)
  obtain ⟨hresult, hway⟩ := h
  rw [habove'] at hresult hway
  obtain ⟨f, hentry⟩ := entryAt_error_of_find? hbase hd hns hnone
  have hnew := makeDirectories_others hbase hd hrest hapart
  rcases habove : d.makeDirectories cwd (route rooted ups ns) with ⟨r, above⟩
  rw [habove] at hresult hway hnew
  rw [hnone] at hnew
  dsimp only at hresult
  subst hresult
  obtain ⟨hmadeBase, hsound, hdir⟩ := find?_of_made hbase hd hrest habove
  have hmake := (makeDirectories_above hbase hd hns hentry).1 above habove
  rw [makeIfMissing_concat hmadeBase hsound hns hdir hnew] at hmake
  have hshort : ¬ 255 < name.length := Nat.not_lt.mpr (hleads.short name (by simp))
  have hnul : nul ∉ route rooted ups (ns ++ [name]) :=
    nul_not_mem_route fun part hpart => (hleads.proper part (List.mem_append_right _ hpart)).2.2
  rw [if_neg hnul, if_neg hshort] at hmake
  refine ⟨by rw [hmake, hmake'], fun upper hupper => ?_⟩
  rw [hmake, hmake', find?_put (by simp)]
  rcases List.prefix_concat_iff.mp hupper with rfl | hupper
  · rw [if_pos rfl, hdir']
  · rw [if_neg (Ne.symm (hapart upper hupper))]
    exact hway upper hupper

end Concat

end MakesAlike

theorem makeDirectories_alike (hbase : Base d rooted cwd ups start) (hd : d.Sound) (hd' : d'.Sound)
    (hwithin : d.Within d') (hns : Names ns)
    (hway : ∀ upper, upper <+: ns → d'.find? (start ++ upper) = d.find? (start ++ upper) ∨
      d.find? (start ++ upper) = none ∧ d'.find? (start ++ upper) = some .directory) :
    MakesAlike d d' rooted cwd ups start ns := by
  have hbase' := hbase.within hwithin
  induction ns using List.reverseRecOn with
  | nil =>
    refine .of_there hbase hd hd' hwithin hns (e := .directory) ?_ ?_
    · rw [List.append_nil, hbase.directory]
    · rw [List.append_nil, hbase'.directory]
  | append_singleton ns name ih =>
    have hrest : Names ns := fun part hpart => hns part (by simp [hpart])
    have h := ih hrest fun upper hupper => hway upper (hupper.trans (List.prefix_append _ _))
    cases hfind : d.find? (start ++ (ns ++ [name])) with
    | some e =>
      refine .of_there hbase hd hd' hwithin hns hfind ?_
      rcases hway _ List.prefix_rfl with heq | ⟨hnone, -⟩
      · rw [heq, hfind]
      · rw [hfind] at hnone
        cases hnone
    | none =>
      rcases hway _ List.prefix_rfl with heq | ⟨-, hdir'⟩
      · exact h.concat_missing hbase hbase' hd hd' hns hfind (heq.trans hfind)
      · exact h.concat_made hbase hbase' hd hd' hns hfind hdir'

theorem find?_makeDirectories (hbase : Base d rooted cwd ups start) (hd : d.Sound) (hd' : d'.Sound)
    (hwithin : d.Within d') (hns : Names ns)
    (hway : ∀ upper, upper <+: ns → d'.find? (start ++ upper) = d.find? (start ++ upper) ∨
      d.find? (start ++ upper) = none ∧ d'.find? (start ++ upper) = some .directory)
    (l : Location) :
    (d'.makeDirectories cwd (route rooted ups ns)).2.find? l =
      if (d.makeDirectories cwd (route rooted ups ns)).2.find? l = d.find? l then d'.find? l
      else (d.makeDirectories cwd (route rooted ups ns)).2.find? l := by
  have halike := makeDirectories_alike hbase hd hd' hwithin hns hway
  have hgrown := d'.makeDirectories_grown cwd (route rooted ups ns)
  by_cases hl : ∃ upper, upper <+: ns ∧ l = start ++ upper
  · obtain ⟨upper, hupper, rfl⟩ := hl
    have hsame := halike.way upper hupper
    split
    next hkept =>
      rcases hway upper hupper with heq | ⟨hnone, hdir⟩
      · rw [← hsame, hkept, heq]
      · -- the directory that is there already would have been made too
        have hdir' := hgrown.within _ hdir
        rw [← hsame, hkept, hnone] at hdir'
        cases hdir'
    · exact hsame.symm
  · have hoff : ∀ upper, upper <+: ns → l ≠ start ++ upper :=
      fun upper hupper heq => hl ⟨upper, hupper, heq⟩
    rw [makeDirectories_others hbase hd hns hoff, if_pos rfl,
      makeDirectories_others (hbase.within hwithin) hd' hns hoff]

end Making

end Disk

end Stencil
