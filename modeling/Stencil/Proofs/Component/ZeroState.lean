import Stencil.Proofs.Component.Purity

namespace Stencil

open Deferred

namespace Blueprint

theorem construct_grounds (b : Blueprint) (hkeys : (b.symbols.entries.map Prod.fst).Nodup)
    {f : Frame} {m : Machine Value} (h : b.construct.run {} = (f, m)) :
    ∃ piles, Stacked piles m f ∧ GroundsAll b.zero [] piles := by
  obtain ⟨piles, hstacked, hzeros⟩ := b.construct_stacked h
  refine ⟨piles, hstacked, .rest fun entry hentry => ?_⟩
  obtain ⟨type, hsymbol, hpile⟩ := hzeros entry hentry
  rw [hpile, zero, Symbols.lookup?, Text.lookup_of_mem hkeys hsymbol, Option.getD_some]

end Blueprint

namespace Instance

variable {b : Blueprint} {i j : Instance}

theorem answers_eq_of_twins (h : Twins b i j) (steps : List InstanceStep) :
    i.answers b steps = j.answers b steps := by
  induction steps generalizing i j with
  | nil => rfl
  | cons s steps ih =>
    obtain ⟨hanswer, htwins⟩ := run_twins h s
    rw [answers, answers, hanswer, ih htwins]

theorem zero_twins_new (hkeys : (b.symbols.entries.map Prod.fst).Nodup) :
    Twins b {} (Instance.new b) := by
  obtain ⟨piles, hstacked, hground⟩ := b.construct_grounds hkeys rfl
  exact ⟨[], piles, .empty, hstacked, hground⟩

/-- A card that was never set up answers every run of sets, updates, reads and renderings as a new
card does, with the same values and the same nodes. -/
theorem zero_card_as_new (steps : List InstanceStep) :
    ({} : Instance).answers Card.blueprint steps =
      (Instance.new Card.blueprint).answers Card.blueprint steps :=
  answers_eq_of_twins (zero_twins_new (by decide)) steps

end Instance

end Stencil
