import Stencil.Markup.Construction.State

namespace Stencil.Markup.Construction

def duplicate (n : Nat) : Build Nat := do
  let s ← get
  create (.element [] (s.arena.tag n) (s.arena.attrs n))

def reopenFormatting : Build Unit := do
  let s ← get
  let pending := (s.formatting.toList.reverse.takeWhile fun
    | some n => (position? s.opened n).isNone
    | none => false).reverse
  let start := s.formatting.size - pending.length
  pending.zipIdx.forM fun (item, i) => do
    match item with
    | some n =>
      let copy ← duplicate n
      place copy
      modify fun s => { s with
        opened := s.opened.push copy
        formatting := s.formatting.setIfInBounds (start + i) (some copy) }
    | none => pure ()

private def sameAttributes (xs ys : List Attribute) : Bool :=
  xs.length == ys.length && xs.all ys.contains

private def sinceFence (s : State) : List Nat :=
  s.formatting.toList.reverse.takeWhile (·.isSome) |>.filterMap id

def openFormatting (tag : Text) (attrs : List Attribute) : Build Unit := do
  let n ← openElement [] tag attrs
  let s ← get
  let alike := (sinceFence s).filter fun m =>
    (s.arena.ns m).isEmpty && s.arena.tag m == tag && sameAttributes (s.arena.attrs m) attrs
  (alike.drop 2).forM unformat
  modify fun s => { s with formatting := s.formatting.push (some n) }

def closeOther (tag : Text) : Build Unit := do
  let s ← get
  let inner := s.opened.toList.reverse.takeWhile fun n =>
    s.arena.tag n != tag && !isSpecial s.arena n
  match s.opened.toList.reverse.drop inner.length with
  | n :: outer => if s.arena.tag n == tag then closeFrom outer.length
  | [] => pure ()

private def insertIdx {α : Type} (items : Array α) (i : Nat) (x : α) : Array α :=
  items.extract 0 i ++ #[x] ++ items.extract i items.size

/-- The elements between a formatting element and the block inside it, as seen from the block:
those that are formatting elements themselves are opened anew around what has been moved so far.
`x` is the stack position last looked at, `round` counts the rounds. Gives the outermost node to
move and the place in the list of formatting elements to keep. -/
private def splitBetween (formattingElement block : Nat) :
    (fuel round x last bookmark : Nat) → Build (Nat × Nat)
  | 0, _, _, last, bookmark => pure (last, bookmark)
  | fuel + 1, round, x, last, bookmark => do
    let s ← get
    match s.opened[x - 1]? with
    | none => pure (last, bookmark)
    | some node =>
      if node == formattingElement then pure (last, bookmark)
      else match formattingPosition? s.formatting node with
        | none => do
          unstack node
          splitBetween formattingElement block fuel (round + 1) (x - 1) last bookmark
        | some place => do
          -- from the fourth round on it is closed for good
          if 3 < round then
            unformat node
            splitBetween formattingElement block fuel (round + 1) (x - 1) last
              (if place ≤ bookmark then bookmark - 1 else bookmark)
          else
            let copy ← duplicate node
            modify fun s => { s with
              formatting := s.formatting.setIfInBounds place (some copy)
              opened := s.opened.setIfInBounds (x - 1) copy
              arena := (s.arena.detach last).append copy last }
            splitBetween formattingElement block fuel (round + 1) (x - 1) copy
              (if last == block then place + 1 else bookmark)

private def closeFormattingOnce (tag : Text) : Build Bool := do
  let s ← get
  match (sinceFence s).find? fun n => s.arena.tag n == tag with
  | none =>
    closeOther tag
    return false
  | some element =>
    match position? s.opened element with
    | none =>
      unformat element
      return false
    | some index =>
      if !(← isInScope .default [tag]) then return false
      match (s.opened.toList.drop index).find? (isSpecial s.arena) with
      | none =>
        closeFrom index
        unformat element
        return false
      | some block =>
        let ancestor := (s.opened[index - 1]?).getD 0
        let bookmark := (formattingPosition? s.formatting element).getD 0
        let x := (position? s.opened block).getD 0
        let (last, bookmark) ← splitBetween element block (x + 1) 1 x block bookmark
        -- the block leaves the element, and a copy of the element goes around what the block holds
        modify fun s => { s with arena := s.arena.detach last }
        if isTablePart (s.arena.tag ancestor) then fosterParent last
        else modify fun s => { s with arena := s.arena.append ancestor last }
        let copy ← duplicate element
        modify fun s => { s with arena := (s.arena.moveChildren copy block).append block copy }
        let s ← get
        -- the element is taken off the list before its copy goes in
        let bookmark := match formattingPosition? s.formatting element with
          | some old => if old < bookmark then bookmark - 1 else bookmark
          | none => bookmark
        unformat element
        modify fun s => { s with formatting := insertIdx s.formatting bookmark (some copy) }
        unstack element
        modify fun s => { s with
          opened := insertIdx s.opened (((position? s.opened block).getD 0) + 1) copy }
        return true

private def closeFormattingRounds (tag : Text) : (rounds : Nat) → Build Unit
  | 0 => pure ()
  | rounds + 1 => do
    if ← closeFormattingOnce tag then closeFormattingRounds tag rounds

def closeFormatting (tag : Text) : Build Unit := do
  let s ← get
  if s.topTag == tag && (formattingPosition? s.formatting s.top).isNone then pop
  else closeFormattingRounds tag 8

end Stencil.Markup.Construction
