import Mathlib.Data.List.Nodup
import Stencil.Project.Discover
import Stencil.Proofs.Disk.Sound
import Stencil.Proofs.Path

namespace Stencil

open Ascii Text

namespace Disk

variable {d : Disk} {loc l : Location}

def nameIn? (loc : Location) (p : Location × Entry) : Option (Text × Entry) :=
  match Location.below? loc p.1 with
  | some [name] => some (name, p.2)
  | _ => none

theorem nameIn?_eq_some {p : Location × Entry} {name : Text} {e : Entry}
    (h : nameIn? loc p = some (name, e)) : p = (loc ++ [name], e) := by
  unfold nameIn? at h
  split at h
  next found hbelow =>
    cases h
    rw [Location.below?_eq_some_iff] at hbelow
    exact Prod.ext hbelow rfl
  · cases h

theorem list_perm (d : Disk) (loc : Location) :
    (d.list loc).Perm (d.entries.filterMap (nameIn? loc)) :=
  sortOn_perm _ _

theorem mem_entries_of_mem_list {name : Text} {e : Entry} (h : (name, e) ∈ d.list loc) :
    (loc ++ [name], e) ∈ d.entries := by
  rw [(d.list_perm loc).mem_iff, List.mem_filterMap] at h
  obtain ⟨p, hp, hname⟩ := h
  exact nameIn?_eq_some hname ▸ hp

theorem nodup_list (hkeys : (d.entries.map Prod.fst).Nodup) (loc : Location) :
    ((d.list loc).map Prod.fst).Nodup := by
  rw [((d.list_perm loc).map Prod.fst).nodup_iff, List.Nodup, List.pairwise_map,
    List.pairwise_filterMap]
  rw [List.Nodup, List.pairwise_map] at hkeys
  refine hkeys.imp ?_
  rintro p p' hne ⟨name, e⟩ hname ⟨_, e'⟩ hname' rfl
  rw [nameIn?_eq_some hname, nameIn?_eq_some hname'] at hne
  exact hne rfl

theorem isSome_find?_of_mem {e : Entry} (h : (l, e) ∈ d.entries) : (d.find? l).isSome = true := by
  by_cases hl : l = []
  · rw [hl]
    rfl
  · rw [find?_of_ne hl, Option.isSome_iff_ne_none]
    intro hnone
    have hne := List.lookup_eq_none_iff.mp hnone (l, e) h
    simp at hne

theorem mem_treeWithin {skip : Location → Bool} {fuel : Nat} {top e : Entry}
    (h : (l, e) ∈ d.treeWithin skip fuel loc top) :
    ∃ rest, l = loc ++ rest ∧ (rest = [] → e = top) ∧
      (rest ≠ [] → top = .directory ∧ (l, e) ∈ d.entries) ∧
      ∀ upper name lower, rest = upper ++ name :: lower → lower ≠ [] →
        skip (loc ++ upper ++ [name]) = false := by
  induction fuel generalizing loc top with
  | zero =>
    have hself : l = loc ∧ e = top := by cases top <;> simpa [treeWithin] using h
    exact ⟨[], by simp [hself], fun _ => hself.2, by simp, by simp⟩
  | succ fuel ih =>
    cases top with
    | file content =>
      have hself : l = loc ∧ e = .file content := by simpa [treeWithin] using h
      exact ⟨[], by simp [hself], fun _ => hself.2, by simp, by simp⟩
    | directory =>
      rw [treeWithin, List.mem_cons, List.mem_flatMap] at h
      rcases h with hself | ⟨⟨name, inner⟩, hname, hinner⟩
      · cases hself
        exact ⟨[], by simp, by simp, by simp, by simp⟩
      · dsimp only at hinner
        split at hinner
        · cases hinner
        next hskip =>
          obtain ⟨rest, rfl, hnil, hcons, hshown⟩ := ih hinner
          refine ⟨name :: rest, by simp, by simp, fun _ => ⟨rfl, ?_⟩, ?_⟩
          · by_cases hrest : rest = []
            · rw [hrest, hnil hrest, List.append_nil]
              exact mem_entries_of_mem_list hname
            · exact (hcons hrest).2
          · intro upper other lower hsplit hlower
            cases upper with
            | nil =>
              obtain ⟨rfl, rfl⟩ := List.cons.inj hsplit
              rw [(hcons hlower).1] at hskip
              simpa [Entry.isDirectory] using hskip
            | cons first upper =>
              obtain ⟨rfl, hrest⟩ := List.cons.inj hsplit
              simpa using hshown upper other lower hrest hlower

theorem nodup_treeWithin (hkeys : (d.entries.map Prod.fst).Nodup) (skip : Location → Bool)
    (fuel : Nat) (loc : Location) (top : Entry) :
    ((d.treeWithin skip fuel loc top).map Prod.fst).Nodup := by
  induction fuel generalizing loc top with
  | zero => cases top <;> simp [treeWithin]
  | succ fuel ih =>
    cases top with
    | file content => simp [treeWithin]
    | directory =>
      rw [treeWithin, List.map_cons, List.nodup_cons, List.map_flatMap, List.nodup_flatMap]
      -- all that is below a name begins with it
      have hbelow {x : Text × Entry} {l : Location}
          (hl : l ∈ (if x.2.isDirectory && skip (loc ++ [x.1]) then []
            else d.treeWithin skip fuel (loc ++ [x.1]) x.2).map Prod.fst) :
          ∃ rest, l = loc ++ x.1 :: rest := by
        obtain ⟨⟨l, e⟩, hmem, rfl⟩ := List.mem_map.mp hl
        split at hmem
        · cases hmem
        · obtain ⟨rest, heq, -⟩ := mem_treeWithin hmem
          exact ⟨rest, by rw [heq, List.append_assoc]; rfl⟩
      refine ⟨fun hself => ?_, fun (name, e) _ => ?_, ?_⟩
      · obtain ⟨x, -, hx⟩ := List.mem_flatMap.mp hself
        obtain ⟨rest, hrest⟩ := hbelow hx
        simp at hrest
      · dsimp only
        split
        · exact .nil
        · exact ih _ _
      · have hnames := nodup_list hkeys loc
        rw [List.Nodup, List.pairwise_map] at hnames
        refine hnames.imp fun {x y} hne l hl hl' => ?_
        obtain ⟨rest, hrest⟩ := hbelow hl
        obtain ⟨rest', hrest'⟩ := hbelow hl'
        rw [hrest] at hrest'
        exact hne (List.cons.inj (List.append_cancel_left hrest')).1

end Disk

namespace Project

variable {d : Disk} {cwd root l : Location} {input : Text} {templates : List TemplateFile}

structure Found (root : Location) (t : TemplateFile) (dirs : List Text) (name : Text) : Prop where
  path : t.path = joinWith [slash] (dirs ++ [name])
  directory : t.directory = root ++ dirs
  template : isTemplateName name = true
  shown : ∀ dir ∈ dirs, isSkippedDirectory dir = false

theorem mem_templatesAt (hroot : d.find? root = some .directory) (h : l ∈ templatesAt d root) :
    ∃ dirs name, l = root ++ (dirs ++ [name]) ∧ isTemplateName name = true ∧
      (∀ dir ∈ dirs, isSkippedDirectory dir = false) ∧ (d.find? l).isSome = true := by
  rw [templatesAt, List.mem_filterMap] at h
  obtain ⟨⟨l', e⟩, hmem, hkept⟩ := h
  dsimp only at hkept
  split at hkept
  next hfile =>
    cases hkept
    rw [Disk.sourceTree, Disk.tree, hroot] at hmem
    obtain ⟨rest, rfl, hnil, hcons, hshown⟩ := Disk.mem_treeWithin hmem
    simp only [Bool.and_eq_true, Bool.not_eq_true'] at hfile
    have hrest : rest ≠ [] := by
      intro hrest
      rw [hnil hrest] at hfile
      cases hfile.1
    obtain ⟨dirs, name, rfl⟩ : ∃ dirs name, rest = dirs ++ [name] := by
      obtain hempty | ⟨dirs, name, hrest'⟩ := List.eq_nil_or_concat rest
      · exact absurd hempty hrest
      · exact ⟨dirs, name, by rw [hrest', List.concat_eq_append]⟩
    refine ⟨dirs, name, rfl, ?_, ?_, Disk.isSome_find?_of_mem (hcons hrest).2⟩
    · simpa [List.getLastD_eq_getLast?] using hfile.2
    · intro dir hdir
      obtain ⟨upper, lower, rfl⟩ := List.append_of_mem hdir
      have hskip := hshown upper dir (lower ++ [name]) (by simp) (by simp)
      simpa [List.getLastD_eq_getLast?] using hskip
  · cases hkept

theorem nodup_templatesAt (hkeys : (d.entries.map Prod.fst).Nodup) (root : Location) :
    (templatesAt d root).Nodup := by
  have htree : ((d.sourceTree root).map Prod.fst).Nodup := by
    unfold Disk.sourceTree Disk.tree
    split
    · exact Disk.nodup_treeWithin hkeys _ _ _ _
    · exact .nil
  rw [List.Nodup, List.pairwise_map] at htree
  rw [templatesAt, List.Nodup, List.pairwise_filterMap]
  refine htree.imp ?_
  rintro ⟨l, e⟩ ⟨l', e'⟩ hne found hfound found' hfound'
  dsimp only at hfound hfound'
  split at hfound
  · split at hfound'
    · cases hfound
      cases hfound'
      exact hne
    · cases hfound'
  · cases hfound

theorem discover_ok (hroot : d.resolve cwd (Path.absolute cwd.path input) = .ok root)
    (hfound : (discover d cwd input).1 = .ok templates) :
    ∃ names : List (Location × Text), templates = (templatesAt d root).map fun l =>
      ⟨relativePath root l, l.dropLast, (names.lookup l.dropLast).getD []⟩ := by
  unfold discover at hfound
  dsimp only at hfound
  rw [hroot] at hfound
  split at hfound
  · cases hfound
  · cases hfound
  next loc hlstat hloc =>
    cases hloc
    split at hfound
    next hempty =>
      cases hfound
      rw [List.isEmpty_iff.mp hempty]
      exact ⟨[], rfl⟩
    · cases hfound
      exact ⟨_, rfl⟩

theorem found_at (hd : d.Sound) (hdir : d.find? root = some .directory)
    (hl : l ∈ templatesAt d root) (package : Text) :
    ∃ dirs name, l = root ++ (dirs ++ [name]) ∧
      Found root ⟨relativePath root l, l.dropLast, package⟩ dirs name ∧ d.Leads l := by
  obtain ⟨dirs, name, rfl, htemplate, hshown, hthere⟩ := mem_templatesAt hdir hl
  refine ⟨dirs, name, rfl, ⟨?_, ?_, htemplate, hshown⟩, hd _ hthere⟩
  · have hbelow := Location.below?_eq_some_iff.mpr (rfl : root ++ (dirs ++ [name]) = _)
    rw [relativePath, hbelow]
    cases dirs <;> rfl
  · rw [← List.append_assoc, List.dropLast_concat]

theorem found_of_mem (hd : d.Sound)
    (hroot : d.resolve cwd (Path.absolute cwd.path input) = .ok root)
    (hdir : d.find? root = some .directory) (hfound : (discover d cwd input).1 = .ok templates)
    {t : TemplateFile} (ht : t ∈ templates) :
    ∃ dirs name, Found root t dirs name ∧ d.Leads (root ++ (dirs ++ [name])) := by
  obtain ⟨names, rfl⟩ := discover_ok hroot hfound
  obtain ⟨l, hl, rfl⟩ := List.mem_map.mp ht
  obtain ⟨dirs, name, rfl, hplace, hleads⟩ := found_at hd hdir hl
    ((names.lookup l.dropLast).getD [])
  exact ⟨dirs, name, hplace, hleads⟩

theorem Found.unique {t : TemplateFile} {dirs dirs' : List Text} {name name' : Text}
    (h : Found root t dirs name) (h' : Found root t dirs' name')
    (hproper : Location.Proper (dirs ++ [name])) (hproper' : Location.Proper (dirs' ++ [name'])) :
    dirs = dirs' ∧ name = name' := by
  have hdirs : dirs = dirs' := List.append_cancel_left (h.directory.symm.trans h'.directory)
  have hbase {dirs : List Text} {name : Text} (h : Found root t dirs name)
      (hproper : Location.Proper (dirs ++ [name])) : Path.base t.path = name := by
    rw [h.path]
    exact Path.base_joinWith hproper.parts
  exact ⟨hdirs, (hbase h hproper).symm.trans (hbase h' hproper')⟩

section

variable (hroot : d.resolve cwd (Path.absolute cwd.path input) = .ok root)
  (hfound : (discover d cwd input).1 = .ok templates)

include hroot hfound

theorem eq_of_found {t t' : TemplateFile} (ht : t ∈ templates) (ht' : t' ∈ templates)
    {dirs : List Text} {name : Text} (h : Found root t dirs name) (h' : Found root t' dirs name) :
    t = t' := by
  obtain ⟨names, rfl⟩ := discover_ok hroot hfound
  obtain ⟨l, -, rfl⟩ := List.mem_map.mp ht
  obtain ⟨l', -, rfl⟩ := List.mem_map.mp ht'
  have hpath := h.path.trans h'.path.symm
  have hdirectory := h.directory.trans h'.directory.symm
  dsimp only at hpath hdirectory
  rw [hpath, hdirectory]

theorem nodup_of_discover (hd : d.Sound) (hdir : d.find? root = some .directory)
    (hkeys : (d.entries.map Prod.fst).Nodup) : templates.Nodup := by
  obtain ⟨names, rfl⟩ := discover_ok hroot hfound
  refine (nodup_templatesAt hkeys root).map_on fun l hl l' hl' heq => ?_
  obtain ⟨dirs, name, rfl, hplace, hleads⟩ := found_at hd hdir hl
    ((names.lookup l.dropLast).getD [])
  obtain ⟨dirs', name', rfl, hplace', hleads'⟩ := found_at hd hdir hl'
    ((names.lookup l'.dropLast).getD [])
  rw [← heq] at hplace'
  obtain ⟨rfl, rfl⟩ := hplace.unique hplace'
    (fun part hpart => hleads.proper part (List.mem_append_right _ hpart))
    (fun part hpart => hleads'.proper part (List.mem_append_right _ hpart))
  rfl

end

end Project

end Stencil
