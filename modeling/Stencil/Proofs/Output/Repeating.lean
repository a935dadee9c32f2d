import Stencil.Proofs.Disk.Making
import Stencil.Proofs.Output.Locality

namespace Stencil

open Ascii Text

namespace Output

variable {o : Output} {units : List SourceFile} {rooted : Bool} {ups : Nat} {ns : List Text}
  {start : Location} {d d' b : Disk}

structure Regular (o : Output) (units : List SourceFile) (rooted : Bool) (ups : Nat)
    (ns : List Text) : Prop where
  faults : ∀ step, o.faults step = none
  tokens : ∀ n, slash ∉ o.tokens n ∧ nul ∉ o.tokens n
  fits : ∀ u ∈ units, Fits u.name
  distinct : (units.map SourceFile.name).Nodup
  apart : ∀ u ∈ units, ∀ v ∈ units, ∀ n, u.name ≠ o.draftName v.name n
  names : Disk.Names ns
  dir : o.dir = Disk.route rooted ups ns

namespace Regular

variable (h : o.Regular units rooted ups ns) (hbase : Disk.Base d rooted o.cwd ups start)
  (hd : d.Sound)

include h hbase hd

theorem stands (hmade : d.makeDirectories o.cwd o.dir = (.ok (), b)) :
    o.Stands (start ++ ns) b := by
  rw [h.dir] at hmade
  obtain ⟨hbase', hsound, hdir⟩ := Disk.find?_of_made hbase hd h.names hmade
  refine ⟨hsound, ?_, hdir⟩
  rw [h.dir]
  apply hbase'.resolve_of_there hsound h.names
  rw [hdir]
  rfl

theorem wrote : ∃ placed, placed ⊆ units ∧ ((o.write units d).1.isOk = true → placed = units) ∧
    o.Wrote (start ++ ns) d (o.write units d).2 placed := by
  have hends := write_ends hd (fun n => (h.tokens n).1) h.distinct
    fun u hu => h.apart u (List.dropLast_subset _ hu)
  rcases hmade : d.makeDirectories o.cwd o.dir with ⟨f | ⟨⟩, b⟩
  · have hgrown := d.makeDirectories_grown o.cwd o.dir
    rw [hmade] at hgrown
    rw [write_of_makes_not (h.faults _) hmade]
    exact ⟨[], List.nil_subset _, Bool.noConfusion, by simp, by simp, fun l _ => hgrown l⟩
  · have hs := h.stands hbase hd hmade
    have hlevel := (write_level h.faults h.fits h.tokens h.apart hmade hmade hs hs fun _ _ => rfl).2
    -- the units were written to the directory that the path of the writer leads to
    have hhere {here : Location} {placed : List SourceFile} (hplaced : placed ⊆ units)
        (hwrote : o.Wrote here d (o.write units d).2 placed) :
        o.Wrote (start ++ ns) d (o.write units d).2 placed := by
      have hplace : ∀ u ∈ placed, here = start ++ ns := by
        intro u hu
        have hresolve := hwrote.place u hu
        rw [hlevel.stands.resolve_join (h.fits u (hplaced hu))] at hresolve
        exact (List.append_inj_left' (Except.ok.inj hresolve) rfl).symm
      refine ⟨fun u hu => ?_, fun u hu => ?_, fun l hl => hwrote.others l fun u hu => ?_⟩
      · exact hplace u hu ▸ hwrote.place u hu
      · exact hplace u hu ▸ hwrote.content u hu
      · exact hplace u hu ▸ hl u hu
    cases hok : (o.write units d).1.isOk with
    | true =>
      obtain ⟨here, hwrote⟩ := hends.1 hok
      exact ⟨units, fun _ hu => hu, fun _ => rfl, hhere (fun _ hu => hu) hwrote⟩
    | false =>
      rcases hends.2 hok with hgrown | ⟨here, placed, u, rest, hsplit, hwrote, -⟩
      · exact ⟨[], List.nil_subset _, Bool.noConfusion, by simp, by simp, fun l _ => hgrown l⟩
      · have hplaced : placed ⊆ units := hsplit ▸ List.subset_append_left _ _
        exact ⟨placed, hplaced, Bool.noConfusion, hhere hplaced hwrote⟩

theorem directories : d.Within (o.write units d).2 ∧
    ∀ l, (o.write units d).2.find? l = some .directory →
      d.find? l = some .directory ∨ ∃ upper, upper <+: ns ∧ l = start ++ upper := by
  have hgrown := d.makeDirectories_grown o.cwd o.dir
  have hothers : ∀ l, (d.makeDirectories o.cwd o.dir).2.find? l = some .directory →
      d.find? l = some .directory ∨ ∃ upper, upper <+: ns ∧ l = start ++ upper := by
    intro l hl
    by_cases hway : ∃ upper, upper <+: ns ∧ l = start ++ upper
    · exact .inr hway
    · left
      rw [h.dir, Disk.makeDirectories_others hbase hd h.names] at hl
      · exact hl
      · exact fun upper hupper heq => hway ⟨upper, hupper, heq⟩
  rcases hmade : d.makeDirectories o.cwd o.dir with ⟨f | ⟨⟩, b⟩
  · rw [hmade] at hgrown hothers
    rw [write_of_makes_not (h.faults _) hmade]
    exact ⟨hgrown.within, hothers⟩
  · rw [hmade] at hgrown hothers
    have hs := h.stands hbase hd hmade
    have hlevel := (write_level h.faults h.fits h.tokens h.apart hmade hmade hs hs fun _ _ => rfl).2
    refine ⟨fun l hl => ?_, fun l hl => ?_⟩
    · exact (hlevel.directories l).mpr (hgrown.within l hl)
    · exact hothers l ((hlevel.directories l).mp hl)

theorem changes {l : Location} (hl : (o.write units d).2.find? l ≠ d.find? l) :
    (∃ u ∈ units, l = start ++ ns ++ [u.name] ∧
      (o.write units d).2.find? l = some (.file u.content)) ∨
    d.find? l = none ∧ (o.write units d).2.find? l = some .directory ∧
      ∃ upper, upper <+: ns ∧ l = start ++ upper := by
  obtain ⟨placed, hplaced, -, hwrote⟩ := h.wrote hbase hd
  by_cases hunit : ∃ u ∈ placed, l = start ++ ns ++ [u.name]
  · obtain ⟨u, hu, rfl⟩ := hunit
    exact .inl ⟨u, hplaced hu, rfl, hwrote.content u hu⟩
  · right
    rcases hwrote.others l fun u hu heq => hunit ⟨u, hu, heq⟩ with heq | ⟨hnone, hdir⟩
    · exact absurd heq hl
    · refine ⟨hnone, hdir, ((h.directories hbase hd).2 l hdir).resolve_left ?_⟩
      rw [hnone]
      simp

theorem alike (hd' : d'.Sound) (hwithin : d.Within d')
    (hway : ∀ upper, upper <+: ns → d'.find? (start ++ upper) = d.find? (start ++ upper) ∨
      d.find? (start ++ upper) = none ∧ d'.find? (start ++ upper) = some .directory)
    (htouched : ∀ x, o.Touches units x →
      d'.find? (start ++ ns ++ [x]) = d.find? (start ++ ns ++ [x])) :
    (o.write units d').1 = (o.write units d).1 ∧
      ∀ l, (o.write units d').2.find? l =
        if (o.write units d).2.find? l = d.find? l then d'.find? l
        else (o.write units d).2.find? l := by
  have hbase' := hbase.within hwithin
  have hresult := (Disk.makeDirectories_alike hbase hd hd' hwithin h.names hway).result
  have hview := Disk.find?_makeDirectories hbase hd hd' hwithin h.names hway
  rw [← h.dir] at hresult hview
  rcases hmade : d.makeDirectories o.cwd o.dir with ⟨r, b⟩
  rcases hmade' : d'.makeDirectories o.cwd o.dir with ⟨r', b'⟩
  rw [hmade, hmade'] at hresult hview
  dsimp only at hresult hview
  subst hresult
  cases r with
  | error f =>
    rw [write_of_makes_not (h.faults _) hmade, write_of_makes_not (h.faults _) hmade']
    exact ⟨rfl, hview⟩
  | ok done =>
    have hs := h.stands hbase hd hmade
    have hs' := h.stands hbase' hd' hmade'
    -- the directories that are made lie above the names that writing makes use of
    have hinside (x : Text) : ∀ upper, upper <+: ns → start ++ ns ++ [x] ≠ start ++ upper := by
      intro upper hupper
      rw [List.append_assoc]
      exact Disk.concat_ne hupper start x
    have hsame : ∀ x, o.Touches units x →
        b.find? (start ++ ns ++ [x]) = b'.find? (start ++ ns ++ [x]) := by
      intro x hx
      have hkept := Disk.makeDirectories_others hbase hd h.names (hinside x)
      rw [← h.dir, hmade] at hkept
      rw [hview, if_pos hkept, hkept, htouched x hx]
    obtain ⟨hends, hlevel⟩ := write_level h.faults h.fits h.tokens h.apart hmade hmade' hs hs' hsame
    refine ⟨hends.symm, fun l => ?_⟩
    by_cases hl : ∃ x, o.Touches units x ∧ l = start ++ ns ++ [x]
    · obtain ⟨x, hx, rfl⟩ := hl
      rw [← hlevel.touched x hx]
      split
      next hkept => rw [hkept, htouched x hx]
      · rfl
    · obtain ⟨hrest, hrest'⟩ := hlevel.rest l fun x hx heq => hl ⟨x, hx, heq⟩
      rw [hrest, hrest']
      exact hview l

end Regular

end Output

end Stencil
