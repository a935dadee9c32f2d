import Stencil.Proofs.Cache.Fields
import Stencil.Proofs.Output.Placing

namespace Stencil

open Ascii Text

namespace Output

variable {o : Output} {b d : Disk} {here : Location} {units : List SourceFile}

theorem Stands.resolve_join {name : Text} (h : o.Stands here d) (hname : Fits name) :
    d.resolve o.cwd (Path.join [o.dir, name]) = .ok (here ++ [name]) := by
  apply Disk.resolve_join_name h.resolves h.directory hname.slash hname.nul
  exact Disk.walk_name h.directory hname.valid hname.short

theorem Stands.fits {name : Text} (h : o.Stands here d)
    (hname : (d.find? (here ++ [name])).isSome) : Fits name := by
  have hleads := h.sound _ hname
  obtain ⟨hvalid, hslash, hnul⟩ := hleads.proper name (by simp)
  exact ⟨hvalid, hleads.short name (by simp), hslash, hnul⟩

/-- The paths of the units hold their contents, and all else is as before, except for directories
that were missing. -/
structure Wrote (o : Output) (here : Location) (before after : Disk) (units : List SourceFile) :
    Prop where
  place : ∀ u ∈ units, after.resolve o.cwd (Path.join [o.dir, u.name]) = .ok (here ++ [u.name])
  content : ∀ u ∈ units, after.find? (here ++ [u.name]) = some (.file u.content)
  others : ∀ l, (∀ u ∈ units, l ≠ here ++ [u.name]) →
    after.find? l = before.find? l ∨ before.find? l = none ∧ after.find? l = some .directory

theorem Littered.wrote {after : Disk} (h : Littered o b here units [] after) (hgrown : d.Grown b) :
    o.Wrote here d after units where
  place := by
    intro u hu
    apply h.stands.resolve_join
    apply h.stands.fits
    rw [h.holds u hu]
    rfl
  content := h.holds
  others := by
    intro l hl
    rw [h.rest l hl (by simp)]
    exact hgrown l

theorem placeAll_eq (drafts : List (SourceFile × Text)) (k : Nat) :
    ((((drafts.map Prod.fst).zip (drafts.map fun x => o.inside x.2)).zipIdx k).forM
        fun ((u, t), i) => o.place i u t) =
      (drafts.zipIdx k).forM fun (y, i) => o.place i y.1 (o.inside y.2) := by
  induction drafts generalizing k with
  | nil => rfl
  | cons y drafts ih =>
    exact congrArg (fun rest => o.place k y.1 (o.inside y.2) >>= fun _ => rest) (ih (k + 1))

section

variable (hd : d.Sound) (htokens : ∀ n, slash ∉ o.tokens n)
  (hnames : (units.map SourceFile.name).Nodup)
  (hapart : ∀ u ∈ units.dropLast, ∀ v ∈ units, ∀ n, u.name ≠ o.draftName v.name n)

include hd in
theorem makeDirectory_ends (E : Progress → Prop)
    (hfails : ∀ q, q.temporaries = [] → d.Grown q.disk → E q) :
    Ends (o.call .makeDirectory (fun f => .directory o.dir ⟨utf8 "mkdir", [o.dir], f⟩) fun d =>
      let (made, d) := d.makeDirectories o.cwd o.dir
      (made.mapError (.directory o.dir), d)) ⟨d, []⟩
      (fun _ q => d.Grown q.disk ∧ ∃ here, Prepared o q.disk here [] q) E := by
  have hgrown := d.makeDirectories_grown o.cwd o.dir
  have hsound := hd.makeDirectories o.cwd o.dir
  have hmade : (d.makeDirectories o.cwd o.dir).1.isOk = true →
      (d.makeDirectories o.cwd o.dir).2.entryAt o.cwd o.dir = .ok .directory := d.makeDirectories_ok
  apply ends_call
  · intro a made haction
    rcases hmake : d.makeDirectories o.cwd o.dir with ⟨e | done, made'⟩
    · rw [hmake] at haction
      cases haction
    · rw [hmake] at haction hgrown hsound hmade
      cases haction
      obtain ⟨here, hresolve, hdir⟩ := Disk.entryAt_eq_ok_iff.mp (hmade rfl)
      exact ⟨hgrown, here, ⟨⟨hsound, hresolve, hdir⟩, by simp, by simp, fun _ _ _ => rfl⟩,
        ⟨by simp, by simp, by simp, by simp⟩, rfl⟩
  · intro e made haction
    rcases hmake : d.makeDirectories o.cwd o.dir with ⟨e | done, made'⟩
    · rw [hmake] at haction hgrown
      cases haction
      exact hfails _ rfl hgrown
    · rw [hmake] at haction
      cases haction
  · exact fun _ => hfails _ rfl (Disk.Grown.refl d)

include hnames hapart in
theorem placing_ends {drafts : List (SourceFile × Text)} {p : Progress} (hgrown : d.Grown b)
    (hdrafts : drafts.map Prod.fst = units) (h : Prepared o b here drafts p) :
    Ends (drafts.zipIdx.forM fun (y, i) => o.place i y.1 (o.inside y.2)) p
      (fun _ q => o.Wrote here d q.disk units)
      (fun q => ∃ placed u rest, units = placed ++ u :: rest ∧
        o.Wrote here d (o.discard q) placed ∧ Blocked o placed.length u (o.discard q)) := by
  have hapart' : ∀ u ∈ units.dropLast, ∀ y ∈ drafts, u.name ≠ y.2 := by
    intro u hu y hy
    obtain ⟨n, hn⟩ := h.made.named y hy
    rw [hn]
    exact hapart u hu y.1 (hdrafts ▸ List.mem_map_of_mem hy) n
  have hplace := placeAll_ends h.staged h.made (by simpa [hdrafts] using hnames)
    (by simpa [hdrafts] using hapart') 0
  refine hplace.imp (fun q hq => ?_) fun q hq => ?_
  · rw [List.nil_append, hdrafts] at hq
    have hlittered : Littered o b here units [] q.disk :=
      ⟨hq.stands, hq.holds, by simp, by simp, by simp, fun l hl _ => hq.rest l hl (by simp)⟩
    exact hlittered.wrote hgrown
  · obtain ⟨before, y, after, hsplit, htemporaries, hq, hblocked⟩ := hq
    have hunits : units = before.map Prod.fst ++ y.1 :: after.map Prod.fst := by
      rw [← hdrafts, hsplit]
      simp
    rw [List.nil_append] at hq
    have hkept : ∀ u ∈ before.map Prod.fst, ∀ x ∈ drafts, u.name ≠ x.2 := by
      intro u hu
      apply hapart' u
      rw [hunits, List.dropLast_append_of_ne_nil (by simp)]
      exact List.mem_append_left _ hu
    have hlittered := hq.littered h.made (fun x hx => hsplit ▸ List.mem_append_right _ hx) hkept
    have hpaths : q.temporaries = (drafts.map Prod.snd).map o.inside := by
      rw [htemporaries, h.temporaries, List.map_map]
      rfl
    obtain ⟨hclean, hwithin⟩ := hlittered.discard hpaths fun u hu hmem => by
      obtain ⟨x, hx, heq⟩ := List.mem_map.mp hmem
      exact hkept u hu x hx heq.symm
    refine ⟨before.map Prod.fst, y.1, after.map Prod.fst, hunits, hclean.wrote hgrown, ?_⟩
    rw [List.length_map]
    rw [Nat.zero_add] at hblocked
    refine hblocked.imp id fun hdir => ?_
    obtain ⟨loc, hresolve, hloc⟩ := Disk.entryAt_eq_ok_iff.mp hdir
    exact Disk.entryAt_eq_ok_iff.mpr ⟨loc, hwithin.resolve hresolve, hwithin loc hloc⟩

include hd htokens hnames hapart

theorem steps_ends :
    Ends (o.steps units) ⟨d, []⟩ (fun _ q => ∃ here, o.Wrote here d q.disk units)
      (fun q => d.Grown (o.discard q) ∨ ∃ here placed u rest, units = placed ++ u :: rest ∧
        o.Wrote here d (o.discard q) placed ∧ Blocked o placed.length u (o.discard q)) := by
  unfold steps
  apply Ends.bind
  · apply makeDirectory_ends hd
    intro q htemporaries hgrown
    rw [discard, htemporaries]
    exact .inl hgrown
  · rintro _ q ⟨hgrown, here, hq⟩
    apply Ends.bind
      (Q := fun _ r => ∃ drafts, drafts.map Prod.fst = units ∧ Prepared o q.disk here drafts r)
    · refine (prepareAll_ends htokens hq units 0).imp (fun r hr => hr) fun r hr => .inl fun l => ?_
      obtain ⟨drafts, hr⟩ := hr
      rw [hr.discard l]
      exact hgrown l
    rintro _ r ⟨drafts, hdrafts, hr⟩
    apply Ends.bind (Q := fun s r' => s = r ∧ r' = r)
    · exact .inl ⟨r, r, rfl, rfl, rfl⟩
    rintro s _ ⟨rfl, rfl⟩
    rw [hr.temporaries, ← hdrafts, placeAll_eq, hdrafts]
    refine (placing_ends hnames hapart hgrown hdrafts hr).imp (fun q hq => ⟨here, hq⟩) fun q hq => ?_
    exact .inr ⟨here, hq⟩

theorem write_ends :
    ((o.write units d).1.isOk = true → ∃ here, o.Wrote here d (o.write units d).2 units) ∧
      ((o.write units d).1.isOk = false → d.Grown (o.write units d).2 ∨
        ∃ here placed u rest, units = placed ++ u :: rest ∧
          o.Wrote here d (o.write units d).2 placed ∧
            Blocked o placed.length u (o.write units d).2) := by
  rcases steps_ends hd htokens hnames hapart with ⟨a, q, hrun, hq⟩ | ⟨e, q, hrun, hq⟩
  · have hwrite : o.write units d = (.ok (), q.disk) := by rw [write, hrun]
    rw [hwrite]
    exact ⟨fun _ => hq, Bool.noConfusion⟩
  · have hwrite : o.write units d = (.error e, o.discard q) := by rw [write, hrun]
    rw [hwrite]
    exact ⟨Bool.noConfusion, fun _ => hq⟩

end

/-- Two files: the second is the only one that can fail once the first is in place. -/
theorem write_pair_all_or_nothing (hd : d.Sound) (htokens : ∀ n, slash ∉ o.tokens n)
    {u v : SourceFile} (hnames : u.name ≠ v.name)
    (hapart : ∀ n, u.name ≠ o.draftName v.name n) :
    ((o.write [u, v] d).1.isOk = true → ∃ here, o.Wrote here d (o.write [u, v] d).2 [u, v]) ∧
      ((o.write [u, v] d).1.isOk = false → d.Grown (o.write [u, v] d).2 ∨
        Blocked o 1 v (o.write [u, v] d).2 ∧ ∃ here, o.Wrote here d (o.write [u, v] d).2 [u]) := by
  have hself (n : Nat) : u.name ≠ o.draftName u.name n := by
    intro heq
    have hlength := congrArg List.length heq
    simp only [draftName, List.length_append, List.length_singleton] at hlength
    omega
  have hwrite := @write_ends o d [u, v] hd htokens (by simpa using hnames) (by
    simpa [or_imp, forall_and] using ⟨hself, hapart⟩)
  refine ⟨hwrite.1, fun hfailed => ?_⟩
  rcases hwrite.2 hfailed with hgrown | ⟨here, placed, w, rest, hsplit, hwrote, hblocked⟩
  · exact .inl hgrown
  · cases placed with
    | nil => exact .inl fun l => hwrote.others l (by simp)
    | cons first placed =>
      cases placed with
      | nil =>
        simp only [List.cons_append, List.nil_append, List.cons.injEq] at hsplit
        obtain ⟨rfl, rfl, -⟩ := hsplit
        exact .inr ⟨hblocked, here, hwrote⟩
      | cons second placed => simp at hsplit

section Sample

def pageUnit : SourceFile := ⟨utf8 "page.ml.go", utf8 "package new"⟩

def pageInterface : SourceFile := ⟨utf8 "page.mli.go", utf8 "package new"⟩

def oldOutput (beside : Location × Entry) : Disk :=
  ⟨[([utf8 "o"], .directory), ([utf8 "o", pageUnit.name], .file (utf8 "package old")), beside]⟩

def toOldOutput : Output :=
  { cwd := [], dir := utf8 "o", tokens := Text.ofNat }

theorem oldOutput_written :
    (toOldOutput.write [pageUnit, pageInterface]
        (oldOutput ([utf8 "o", utf8 "x"], .file []))).1.isOk = true ∧
      (toOldOutput.write [pageUnit, pageInterface]
        (oldOutput ([utf8 "o", pageInterface.name], .directory))).1.isOk = false ∧
      (oldOutput ([utf8 "o", pageInterface.name], .directory)).contentOf []
        (Path.join [utf8 "o", pageUnit.name]) = .ok (utf8 "package old") ∧
      (toOldOutput.write [pageUnit, pageInterface]
        (oldOutput ([utf8 "o", pageInterface.name], .directory))).2.contentOf []
          (Path.join [utf8 "o", pageUnit.name]) = .ok (utf8 "package new") := by
  decide +kernel

end Sample

theorem write_pair_all_or_nothing_replaces :
    (toOldOutput.write [pageUnit, pageInterface]
        (oldOutput ([utf8 "o", utf8 "x"], .file []))).1.isOk = true ∧
      ∃ here, toOldOutput.Wrote here (oldOutput ([utf8 "o", utf8 "x"], .file []))
        (toOldOutput.write [pageUnit, pageInterface]
          (oldOutput ([utf8 "o", utf8 "x"], .file []))).2 [pageUnit, pageInterface] := by
  have hok := oldOutput_written.1
  refine ⟨hok, (write_pair_all_or_nothing ?_ ?_ (by decide) ?_).1 hok⟩
  · apply Disk.sound_of_entries
    decide
  · exact Text.not_mem_ofNat (by decide)
  · intro n heq
    have hfirst : pageUnit.name.head? = some dot := by rw [heq]; rfl
    exact absurd hfirst (by decide)

/-- A directory at the path of the second unit: writing fails, but the first unit is replaced. -/
theorem write_pair_half_done :
    ∃ (o : Output) (d : Disk) (u v : SourceFile), d.Sound ∧ (∀ n, slash ∉ o.tokens n) ∧
      u.name ≠ v.name ∧ (o.write [u, v] d).1.isOk = false ∧
      d.contentOf o.cwd (Path.join [o.dir, u.name]) = .ok (utf8 "package old") ∧
      (o.write [u, v] d).2.contentOf o.cwd (Path.join [o.dir, u.name]) =
        .ok (utf8 "package new") := by
  refine ⟨toOldOutput, oldOutput ([utf8 "o", pageInterface.name], .directory), pageUnit,
    pageInterface, ?_, Text.not_mem_ofNat (by decide), by decide, oldOutput_written.2⟩
  apply Disk.sound_of_entries
  decide

end Output

end Stencil
