import Mathlib.Data.List.Infix
import Stencil.Proofs.Disk.Leading
import Stencil.Proofs.Result
import Stencil.Proofs.Text.Order

namespace Stencil

open Ascii Text

theorem Location.below?_eq_some_iff {base loc rest : Location} :
    below? base loc = some rest ↔ loc = base ++ rest := by
  induction base generalizing loc with
  | nil => simp [below?, eq_comm]
  | cons name base ih =>
    cases loc with
    | nil => simp [below?]
    | cons other loc =>
      by_cases heq : name = other
      · simp [below?, heq, ih]
      · simp [below?, heq, Ne.symm heq]

theorem Location.below?_eq_none_iff {base loc : Location} :
    below? base loc = none ↔ ∀ rest, loc ≠ base ++ rest := by
  rw [Option.eq_none_iff_forall_ne_some]
  exact forall_congr' fun rest => not_congr below?_eq_some_iff

theorem Location.below?_upper {base upper rest : Location}
    (h : below? base (upper ++ rest) = none) : below? base upper = none := by
  rw [below?_eq_none_iff] at h ⊢
  rintro more rfl
  exact h (more ++ rest) (List.append_assoc ..)

namespace Disk

section

variable {d : Disk} {loc : Location}

theorem lookup_filter {p : Location → Bool} (entries : List (Location × Entry)) (l : Location) :
    (entries.filter fun e => p e.1).lookup l = if p l then entries.lookup l else none := by
  induction entries with
  | nil => simp
  | cons e entries ih =>
    obtain ⟨place, e⟩ := e
    by_cases hl : l = place
    · subst hl
      by_cases hp : p l
      · simp [hp]
      · simpa [hp] using ih
    · have hbeq : (l == place) = false := by simpa using hl
      by_cases hp : p place
      · simp [hp, List.lookup_cons, hbeq, ih]
      · simp [hp, List.lookup_cons, hbeq, ih]

theorem find?_of_ne {l : Location} (hl : l ≠ []) : d.find? l = d.entries.lookup l :=
  if_neg (by simpa using hl)

theorem ne_nil_of_find? (h : d.find? loc ≠ some .directory) : loc ≠ [] := by
  rintro rfl
  exact h rfl

theorem find?_erase (l : Location) :
    (d.erase loc).find? l = if l ≠ [] ∧ l = loc then none else d.find? l := by
  by_cases hl : l = []
  · rw [if_neg (by simp [hl]), hl]
    rfl
  · rw [find?_of_ne hl, find?_of_ne hl]
    refine (lookup_filter (p := (· ≠ loc)) d.entries l).trans ?_
    by_cases heq : l = loc
    · rw [if_neg (by simp [heq]), if_pos ⟨hl, heq⟩]
    · rw [if_pos (by simp [heq]), if_neg (fun h => heq h.2)]

theorem find?_put (hloc : loc ≠ []) (e : Entry) (l : Location) :
    (d.put loc e).find? l = if l = loc then some e else d.find? l := by
  have herase : (d.erase loc).find? l = _ := find?_erase l
  by_cases hl : l = []
  · rw [if_neg (by simpa [hl] using Ne.symm hloc), hl]
    rfl
  · rw [find?_of_ne hl] at herase ⊢
    rw [put, List.lookup_cons]
    by_cases heq : l = loc
    · simp [heq]
    · have hbeq : (l == loc) = false := by simpa using heq
      simp only [hbeq, heq, and_false, if_false] at herase ⊢
      exact herase

theorem find?_eraseTree_of_ne {l : Location} (hl : l ≠ []) :
    (d.eraseTree loc).find? l = if (Location.below? loc l).isNone then d.find? l else none := by
  rw [find?_of_ne hl, find?_of_ne hl]
  exact lookup_filter (p := fun l => (Location.below? loc l).isNone) d.entries l

theorem find?_eraseTree (hloc : loc ≠ []) (l : Location) :
    (d.eraseTree loc).find? l = if (Location.below? loc l).isNone then d.find? l else none := by
  by_cases hl : l = []
  · have hbelow : Location.below? loc l = none := by
      rw [Location.below?_eq_none_iff, hl]
      intro rest heq
      exact hloc (List.append_eq_nil_iff.mp heq.symm).1
    rw [hbelow, hl]
    rfl
  · exact find?_eraseTree_of_ne hl

theorem lookup_map {f : Location → Location} {l l' : Location} {entries : List (Location × Entry)}
    (h : ∀ e ∈ entries, f e.1 = l ↔ e.1 = l') :
    (entries.map fun e => (f e.1, e.2)).lookup l = entries.lookup l' := by
  induction entries with
  | nil => rfl
  | cons e entries ih =>
    obtain ⟨he, hrest⟩ := List.forall_mem_cons.mp h
    have hbeq : (l == f e.1) = (l' == e.1) := by
      rw [Bool.eq_iff_iff, beq_iff_eq, beq_iff_eq, eq_comm, he, eq_comm]
    rw [List.map_cons, List.lookup_cons, List.lookup_cons, hbeq, ih hrest]

def moved (source target l : Location) : Location :=
  match Location.below? source l with
  | some rest => target ++ rest
  | none => l

theorem moved_eq_iff {source target l : Location} (l' : Location) :
    moved source target l = l' ↔
      (∃ rest, l = source ++ rest ∧ l' = target ++ rest) ∨
        Location.below? source l = none ∧ l' = l := by
  unfold moved
  cases hbelow : Location.below? source l with
  | none =>
    have hnot := Location.below?_eq_none_iff.mp hbelow
    simp [hnot, eq_comm]
  | some rest =>
    rw [Location.below?_eq_some_iff] at hbelow
    simp [hbelow, eq_comm]

theorem entries_move (d : Disk) (source target : Location) :
    (d.move source target).entries =
      (d.eraseTree target).entries.map fun e => (moved source target e.1, e.2) := by
  refine List.map_congr_left fun e _ => ?_
  obtain ⟨l, e⟩ := e
  dsimp only [moved]
  cases Location.below? source l <;> rfl

theorem find?_move {source target : Location} (hsource : source ≠ []) (htarget : target ≠ [])
    (l : Location) :
    (d.move source target).find? l =
      match Location.below? target l with
      | some rest => (d.eraseTree target).find? (source ++ rest)
      | none => if (Location.below? source l).isNone then d.find? l else none := by
  have hleft : ∀ e ∈ (d.eraseTree target).entries, ∀ rest, e.1 ≠ target ++ rest := by
    intro e he
    rw [← Location.below?_eq_none_iff]
    simpa using (List.mem_filter.mp he).2
  by_cases hl : l = []
  · have hnone : ∀ base : Location, base ≠ [] → Location.below? base l = none := by
      intro base hbase
      rw [Location.below?_eq_none_iff, hl]
      intro rest heq
      exact hbase (List.append_eq_nil_iff.mp heq.symm).1
    rw [hnone target htarget, hnone source hsource, hl]
    rfl
  rw [find?_of_ne hl, entries_move]
  cases htree : Location.below? target l with
  | some rest =>
    rw [Location.below?_eq_some_iff] at htree
    dsimp only
    rw [find?_of_ne (by simp [hsource]), htree]
    refine lookup_map fun e he => ?_
    rw [moved_eq_iff]
    constructor
    · rintro (⟨rest', hsame, hrest⟩ | ⟨-, hsame⟩)
      · rw [hsame, List.append_cancel_left hrest]
      · exact absurd hsame.symm (hleft e he rest)
    · exact fun hsame => .inl ⟨rest, hsame, rfl⟩
  | none =>
    have houtside := Location.below?_eq_none_iff.mp htree
    cases hfrom : Location.below? source l with
    | some rest =>
      rw [Location.below?_eq_some_iff] at hfrom
      rw [if_neg (by simp), List.lookup_eq_none_iff]
      intro e he
      obtain ⟨old, hold, rfl⟩ := List.mem_map.mp he
      have hne : moved source target old.1 ≠ l := by
        rw [Ne, moved_eq_iff]
        rintro (⟨rest', -, hrest⟩ | ⟨hbelow, hsame⟩)
        · exact houtside rest' hrest
        · exact Location.below?_eq_none_iff.mp hbelow rest (hsame ▸ hfrom)
      simpa using Ne.symm hne
    | none =>
      have hstill : (d.eraseTree target).entries.lookup l = d.find? l := by
        rw [← find?_of_ne hl, find?_eraseTree htarget, htree]
        rfl
      change _ = d.find? l
      rw [← hstill]
      refine lookup_map fun e he => ?_
      rw [moved_eq_iff]
      constructor
      · rintro (⟨rest', -, hrest⟩ | ⟨-, hsame⟩)
        · exact absurd hrest (houtside rest')
        · exact hsame.symm
      · intro hsame
        exact .inr ⟨hsame ▸ hfrom, hsame.symm⟩

end

section

variable {d d' : Disk} {cwd loc : Location}

theorem Leads.of_kept (h : d.Leads loc)
    (hkept : ∀ upper rest, loc = upper ++ rest → rest ≠ [] → d.find? upper = some .directory →
      d'.find? upper = some .directory) : d'.Leads loc :=
  ⟨h.proper, h.short, fun {upper rest} heq hrest => hkept upper rest heq hrest (h.above heq hrest)⟩

theorem sound_of_entries
    (h : ∀ e ∈ d.entries,
      (∀ name ∈ e.1, (Path.isValidPart name = true ∧ slash ∉ name ∧ nul ∉ name) ∧
        name.length ≤ 255) ∧
      ∀ upper ∈ e.1.inits, upper = e.1 ∨ d.find? upper = some .directory) : d.Sound := by
  intro loc hloc
  by_cases hroot : loc = []
  · rw [hroot]
    exact Leads.root d
  · rw [find?_of_ne hroot] at hloc
    obtain ⟨e, he⟩ := Option.isSome_iff_exists.mp hloc
    obtain ⟨before, after, hentries, -⟩ := List.lookup_eq_some_iff.mp he
    obtain ⟨hnames, habove⟩ := h (loc, e) (by simp [hentries])
    refine ⟨fun name hname => (hnames name hname).1, fun name hname => (hnames name hname).2, ?_⟩
    intro upper rest heq hrest
    have hupper : upper ∈ loc.inits := by
      rw [List.mem_inits, heq]
      exact List.prefix_append upper rest
    apply (habove upper hupper).resolve_left
    rintro rfl
    exact hrest (List.self_eq_append_right.mp heq)

theorem Sound.put (hd : d.Sound) (hloc : d.Leads loc) (hfile : d.find? loc ≠ some .directory)
    (e : Entry) : (d.put loc e).Sound := by
  have hne : loc ≠ [] := ne_nil_of_find? hfile
  intro l hl
  have hleads : d.Leads l := by
    rw [find?_put hne] at hl
    split at hl
    next heq => exact heq ▸ hloc
    · exact hd l hl
  refine hleads.of_kept fun upper rest _ _ hupper => ?_
  rw [find?_put hne, if_neg, hupper]
  rintro rfl
  exact hfile hupper

theorem Sound.erase (hd : d.Sound) (hlast : ∀ rest, rest ≠ [] → d.find? (loc ++ rest) = none) :
    (d.erase loc).Sound := by
  intro l hl
  rw [find?_erase] at hl
  split at hl
  · cases hl
  · refine (hd l hl).of_kept fun upper rest heq hrest hupper => ?_
    rw [find?_erase, if_neg, hupper]
    rintro ⟨-, rfl⟩
    rw [heq, hlast rest hrest] at hl
    cases hl

theorem Sound.eraseTree (hd : d.Sound) (loc : Location) : (d.eraseTree loc).Sound := by
  intro l hl
  by_cases hne : l = []
  · rw [hne]
    exact Leads.root _
  rw [find?_eraseTree_of_ne hne] at hl
  split at hl
  next hleft =>
    rw [Option.isNone_iff_eq_none] at hleft
    refine (hd l hl).of_kept fun upper rest heq _ hupper => ?_
    by_cases hupper' : upper = []
    · rw [hupper']
      rfl
    · rw [find?_eraseTree_of_ne hupper', Location.below?_upper (heq ▸ hleft)]
      exact hupper
  · cases hl

theorem Leads.moved {source target rest : Location} (h : d.Leads (source ++ rest))
    (hsource : source ≠ []) (htarget : d.Leads target) (hfile : d.find? target ≠ some .directory)
    (hapart : Location.below? source target = none) :
    (d.move source target).Leads (target ++ rest) := by
  have hne : target ≠ [] := ne_nil_of_find? hfile
  refine ⟨?_, ?_, fun {upper more} heq hmore => ?_⟩
  · intro name hname
    rcases List.mem_append.mp hname with hname | hname
    · exact htarget.proper name hname
    · exact h.proper name (List.mem_append_right _ hname)
  · intro name hname
    rcases List.mem_append.mp hname with hname | hname
    · exact htarget.short name hname
    · exact h.short name (List.mem_append_right _ hname)
  rw [find?_move hsource hne]
  cases htree : Location.below? target upper with
  | some inner =>
    -- The directory was moved along; it cannot have been below the target, which is none.
    rw [Location.below?_eq_some_iff] at htree
    rw [htree, List.append_assoc] at heq
    have hrest : source ++ rest = source ++ inner ++ more := by
      rw [List.append_cancel_left heq, List.append_assoc]
    have hleft : Location.below? target (source ++ inner) = none := by
      rw [Location.below?_eq_none_iff]
      intro deeper hdeeper
      have hsplit : source ++ rest = target ++ (deeper ++ more) := by
        rw [hrest, hdeeper, List.append_assoc]
      exact hfile (h.above hsplit (by simp [hmore]))
    dsimp only
    rw [find?_eraseTree hne, hleft]
    exact h.above hrest hmore
  | none =>
    have houtside := Location.below?_eq_none_iff.mp htree
    have htop : ∃ lower, target = upper ++ lower ∧ lower ≠ [] := by
      rcases List.append_eq_append_iff.mp heq with ⟨inner, hupper, -⟩ | ⟨lower, htop, -⟩
      · exact absurd hupper (houtside inner)
      · refine ⟨lower, htop, ?_⟩
        rintro rfl
        exact houtside [] (by simpa using htop.symm)
    obtain ⟨lower, htop, hlower⟩ := htop
    rw [Location.below?_upper (htop ▸ hapart)]
    exact htarget.above htop hlower

theorem Sound.move {source target : Location} (hd : d.Sound) (hsource : source ≠ [])
    (htarget : d.Leads target) (hfile : d.find? target ≠ some .directory)
    (hapart : Location.below? source target = none) : (d.move source target).Sound := by
  have hne : target ≠ [] := ne_nil_of_find? hfile
  intro l hl
  rw [find?_move hsource hne] at hl
  cases htree : Location.below? target l with
  | none =>
    rw [htree] at hl
    dsimp only at hl
    split at hl
    next hfrom =>
      rw [Option.isNone_iff_eq_none] at hfrom
      refine (hd l hl).of_kept fun upper rest heq _ hupper => ?_
      rw [find?_move hsource hne, Location.below?_upper (heq ▸ htree),
        Location.below?_upper (heq ▸ hfrom)]
      exact hupper
    · cases hl
  | some rest =>
    rw [htree] at hl
    dsimp only at hl
    rw [find?_eraseTree hne] at hl
    rw [Location.below?_eq_some_iff.mp htree]
    split at hl
    · exact (hd _ hl).moved hsource htarget hfile hapart
    · cases hl

theorem leads_of_resolve {p : Text} (hd : d.Sound) (h : d.resolve cwd p = .ok loc) : d.Leads loc :=
  (absolute_of_resolve hd h).2

theorem Sound.writeFile {p content : Text} (hd : d.Sound) (h : d.writeFile cwd p content = .ok d') :
    d'.Sound := by
  unfold Disk.writeFile at h
  split at h
  · cases h
  next loc hresolve =>
    split at h
    · cases h
    next hfile =>
      cases h
      exact hd.put (leads_of_resolve hd hresolve) hfile _

theorem Sound.createFile {p : Text} (hd : d.Sound) (h : d.createFile cwd p = .ok d') :
    d'.Sound := by
  unfold Disk.createFile at h
  split at h
  · cases h
  next loc hresolve =>
    split at h
    · cases h
    next hnew =>
      cases h
      exact hd.put (leads_of_resolve hd hresolve) (by simp_all) _

theorem Sound.makeDirectory {p : Text} (hd : d.Sound) (h : d.makeDirectory cwd p = .ok d') :
    d'.Sound := by
  unfold Disk.makeDirectory at h
  dsimp only at h
  split at h
  · cases h
  next loc hresolve =>
    split at h
    · cases h
    next hnew =>
      cases h
      exact hd.put (leads_of_resolve hd hresolve) (by simp_all) _

theorem Sound.makeIfMissing (hd : d.Sound) (cwd : Location) (p : Text) :
    (d.makeIfMissing cwd p).2.Sound := by
  unfold Disk.makeIfMissing
  split
  next made hmade => exact hd.makeDirectory hmade
  · split <;> exact hd

theorem Sound.makeDirectories (hd : d.Sound) (cwd : Location) (p : Text) :
    (d.makeDirectories cwd p).2.Sound := by
  fun_induction Disk.makeDirectories d cwd p with
  | case1 | case2 => exact hd
  | case3 => exact hd.makeIfMissing _ _
  | case4 p _ _ q _ _ _ above hmade ih =>
    rw [hmade] at ih
    exact ih.makeIfMissing cwd p
  | case5 p _ _ q _ _ e above hmade ih =>
    rw [hmade] at ih
    exact ih

theorem rename_ok {source target : Text} (hd : d.Sound) (h : d.rename cwd source target = .ok d') :
    ∃ old new, d.resolve cwd source = .ok old ∧ d.resolve cwd target = .ok new ∧
      (d.find? old).isSome = true ∧ d.find? new ≠ some .directory ∧
      (old = new ∧ d' = d ∨
        old ≠ new ∧ old ≠ [] ∧ Location.below? old new = none ∧ d' = d.move old new) := by
  unfold Disk.rename at h
  obtain ⟨old, hold, h⟩ := bind_eq_ok_iff.mp h
  rw [mapError_eq_ok_iff] at hold
  split at h
  next e hfound =>
    obtain ⟨new, hnew, h⟩ := bind_eq_ok_iff.mp h
    rw [mapError_eq_ok_iff] at hnew
    have hleads := leads_of_resolve hd hnew
    split at h
    · cases h
    next content hfile =>
      refine ⟨old, new, hold, hnew, by simp [hfound], by simp [hfile], ?_⟩
      split at h
      · cases h
      next he =>
        split at h
        next hsame =>
          cases h
          exact .inl ⟨hsame, rfl⟩
        next hother =>
          cases h
          have hplain : d.find? old ≠ some .directory := by
            rw [hfound]
            rintro ⟨rfl⟩
            exact he rfl
          refine .inr ⟨hother, by rintro rfl; exact hplain rfl, ?_, rfl⟩
          rw [Location.below?_eq_none_iff]
          rintro rest rfl
          exact hplain (hleads.above rfl (by rintro rfl; simp at hother))
    next hfree =>
      refine ⟨old, new, hold, hnew, by simp [hfound], by simp [hfree], ?_⟩
      split at h
      · cases h
      next hapart =>
        cases h
        refine .inr ⟨?_, by rintro rfl; exact hapart rfl, by simpa using hapart, rfl⟩
        rintro rfl
        rw [hfound] at hfree
        cases hfree
  · cases h

theorem Sound.rename {source target : Text} (hd : d.Sound)
    (h : d.rename cwd source target = .ok d') : d'.Sound := by
  obtain ⟨old, new, -, hnew, -, hfile, ⟨-, rfl⟩ | ⟨-, hne, hapart, rfl⟩⟩ := rename_ok hd h
  · exact hd
  · exact hd.move hne (leads_of_resolve hd hnew) hfile hapart

theorem mem_list {name : Text} {e : Entry} (h : d.find? (loc ++ [name]) = some e) :
    (name, e) ∈ d.list loc := by
  rw [find?_of_ne (by simp)] at h
  obtain ⟨before, after, hentries, -⟩ := List.lookup_eq_some_iff.mp h
  rw [list, (sortOn_perm _ _).mem_iff, List.mem_filterMap]
  exact ⟨(loc ++ [name], e), by simp [hentries], by simp [below?_append]⟩

theorem Sound.remove {p : Text} (hd : d.Sound) (h : d.remove cwd p = .ok d') : d'.Sound := by
  unfold Disk.remove at h
  split at h
  · cases h
  next loc hresolve =>
    split at h
    · cases h
    next content hfile =>
      cases h
      refine hd.erase fun rest hrest => ?_
      rw [Option.eq_none_iff_forall_ne_some]
      intro e he
      have hfind := (hd (loc ++ rest) (by rw [he]; rfl)).above rfl hrest
      rw [hfile] at hfind
      cases hfind
    next hdirectory =>
      split at h
      next hempty =>
        cases h
        refine hd.erase fun rest hrest => ?_
        rw [Option.eq_none_iff_forall_ne_some]
        intro e he
        obtain ⟨name, more, rfl⟩ := List.exists_cons_of_ne_nil hrest
        have hfind : ∃ e, d.find? (loc ++ [name]) = some e := by
          cases more with
          | nil => exact ⟨e, he⟩
          | cons next more =>
            refine ⟨.directory, (hd _ (by rw [he]; rfl)).above ?_ (List.cons_ne_nil next more)⟩
            rw [List.append_assoc]
            rfl
        obtain ⟨first, hfirst⟩ := hfind
        exact absurd (mem_list hfirst) (by rw [List.isEmpty_iff.mp hempty]; simp)
      · cases h

end

end Disk

end Stencil
