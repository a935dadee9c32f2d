import Stencil.Unit.Expr
import Stencil.Unit.Lexeme

/-!
The syntax of generated expressions, as a grammar over lexemes. A phrase is derived from the lexemes
at the beginning of a list and leaves the rest of the list. The grammar is not ambiguous: no source
is read as two expressions.
-/

namespace Stencil

open Ascii Text

namespace Lexeme

def word (s : String) : Lexeme :=
  .name (utf8 s)

def reserved (s : String) : Lexeme :=
  .keyword (utf8 s)

def sign (s : String) : Lexeme :=
  .mark (utf8 s)

end Lexeme

namespace Expr

open Lexeme (word reserved sign semicolonMark)

theorem toUpper_injective {c d : UInt8} (hc : Ascii.isLower c = true) (hd : Ascii.isLower d = true)
    (h : Ascii.toUpper c = Ascii.toUpper d) : c = d := by
  simp only [Ascii.toUpper, hc, hd, if_true] at h
  rw [← UInt8.sub_add_cancel c 32, h, UInt8.sub_add_cancel]

theorem holeName_injective {a b : Text} (ha : isHoleName a = true) (hb : isHoleName b = true)
    (h : holeName a = holeName b) : a = b := by
  cases a with
  | nil => cases ha
  | cons c a =>
    cases b with
    | nil => cases hb
    | cons d b =>
      simp only [isHoleName, Bool.and_eq_true] at ha hb
      simp only [holeName, List.cons.injEq] at h
      rw [toUpper_injective ha.1 hb.1 h.1, h.2]

def literal? : Expr → Option Text
  | .quoted s => some s
  | _ => none

def applied (package function : Text) (args : List Expr) : Option Expr :=
  if package = utf8 "runtime" then
    match args with
    | [] => none
    | f :: rest =>
      if function = utf8 "CallString" then (rest.mapM literal?).map (.callString f ·)
      else if function = utf8 "CallHTML" then (rest.mapM literal?).map (.callFragment f ·)
      else none
  else if package = utf8 "vdom" then
    if function = utf8 "Text" then
      match args with
      | [e] => some (.text e)
      | _ => none
    else if function = utf8 "Comment" then
      match args with
      | [.quoted s] => some (.comment s)
      | _ => none
    else if function = utf8 "Doctype" then
      match args with
      | [.quoted name, attrs] => some (.doctype name attrs)
      | _ => none
    else if function = utf8 "Element" then
      match args with
      | .quoted tag :: attrs :: children => some (.element [] tag attrs children)
      | _ => none
    else if function = utf8 "ElementNS" then
      match args with
      | .quoted ns :: .quoted tag :: attrs :: children => some (.element ns tag attrs children)
      | _ => none
    else if function = utf8 "Concat" then some (.concat args)
    else if function = utf8 "CloneAll" then
      match args with
      | [e] => some (.cloneAll e)
      | _ => none
    else none
  else none

def emptiness (name : Local) (isString : Bool) : List Lexeme :=
  if isString then [.name name.name, sign "==", .string (utf8 "\"\"")]
  else [word "len", sign "(", .name name.name, sign ")", sign "==", .number (utf8 "0")]

inductive Form where
  | operand
  | sum
  | entry
  deriving DecidableEq

mutual

/-- The lexemes `ts` of `Derives form ts e rest` begin with a phrase for `e`, and `rest` follows. -/
inductive Derives : Form → List Lexeme → Expr → List Lexeme → Prop where
  | literal {q s : Text} {rest : List Lexeme} : unquoted? q = some s →
      Derives .operand (.string q :: rest) (.quoted s) rest
  | nil {rest : List Lexeme} : Derives .operand (word "nil" :: rest) .nil rest
  | bound {rest : List Lexeme} (name : Local) :
      Derives .operand (.name name.name :: rest) (.bound name) rest
  | read {hole : Text} {rest : List Lexeme} : isHoleName hole = true →
      Derives .operand
        (word "s" :: sign "." :: .name (utf8 "Get" ++ holeName hole) :: sign "(" :: sign ")" :: rest)
        (.read hole) rest
  | call {package function : Text} {ts rest : List Lexeme} {args : List Expr} {e : Expr} :
      DerivesAll .sum ts args (sign ")" :: rest) → applied package function args = some e →
      Derives .operand (.name package :: sign "." :: .name function :: sign "(" :: ts) e rest
  | attributes {ts rest : List Lexeme} {items : List Expr} :
      DerivesAll .entry ts items (sign "\x7d" :: rest) →
      Derives .operand
        (sign "[" :: sign "]" :: word "html" :: sign "." :: word "Attribute" :: sign "\x7b" :: ts)
        (.attributes items) rest
  | unlessEmpty {name : Local} {isString : Bool} {ts us rest : List Lexeme} {value result : Expr} :
      Derives .sum ts value (semicolonMark :: reserved "if" :: (emptiness name isString ++
        sign "\x7b" :: reserved "return" :: word "nil" :: semicolonMark :: sign "\x7d" ::
          semicolonMark :: reserved "return" :: us)) →
      Derives .sum us result
        (semicolonMark :: sign "\x7d" :: sign "(" :: sign ")" :: rest) →
      Derives .operand
        (reserved "func" :: sign "(" :: sign ")" :: sign "[" :: sign "]" :: sign "*" ::
          word "html" :: sign "." :: word "Node" :: sign "\x7b" :: .name name.name :: sign ":=" :: ts)
        (.unlessEmpty name value isString result) rest
  | sum {ts us rest : List Lexeme} {first e : Expr} :
      Derives .operand ts first us → DerivesSum first us e rest → Derives .sum ts e rest
  | entry {q key : Text} {ts rest : List Lexeme} {value : Expr} : unquoted? q = some key →
      Derives .sum ts value (sign "\x7d" :: rest) →
      Derives .entry
        (sign "\x7b" :: word "Key" :: sign ":" :: .string q :: sign "," :: word "Val" :: sign ":" :: ts)
        (.item [] key value) rest
  | entryIn {q ns : Text} {q' key : Text} {ts rest : List Lexeme} {value : Expr} :
      unquoted? q = some ns → unquoted? q' = some key →
      Derives .sum ts value (sign "\x7d" :: rest) →
      Derives .entry
        (sign "\x7b" :: word "Namespace" :: sign ":" :: .string q :: sign "," :: word "Key" ::
          sign ":" :: .string q' :: sign "," :: word "Val" :: sign ":" :: ts)
        (.item ns key value) rest

inductive DerivesSum : Expr → List Lexeme → Expr → List Lexeme → Prop where
  | done {e : Expr} {rest : List Lexeme} : DerivesSum e rest e rest
  | add {left right e : Expr} {ts us rest : List Lexeme} :
      Derives .operand ts right us → DerivesSum (.add left right) us e rest →
      DerivesSum left (sign "+" :: ts) e rest

inductive DerivesAll : Form → List Lexeme → List Expr → List Lexeme → Prop where
  | none {form : Form} {rest : List Lexeme} : DerivesAll form rest [] rest
  | last {form : Form} {ts rest : List Lexeme} {e : Expr} :
      Derives form ts e rest → DerivesAll form ts [e] rest
  | more {form : Form} {ts us rest : List Lexeme} {e : Expr} {es : List Expr} :
      Derives form ts e (sign "," :: us) → DerivesAll form us es rest →
      DerivesAll form ts (e :: es) rest

end

theorem applied_package {package function : Text} {args : List Expr} {e : Expr}
    (h : applied package function args = some e) :
    package = utf8 "runtime" ∨ package = utf8 "vdom" := by
  by_cases hr : package = utf8 "runtime"
  · exact .inl hr
  by_cases hv : package = utf8 "vdom"
  · exact .inr hv
  · simp [applied, hr, hv] at h

theorem name_injective {a b : Local} (h : a.name = b.name) : a = b := by
  cases a <;> cases b <;> first | rfl | exact absurd h (by decide)

theorem emptiness_append_injective {name : Local} {isString isString' : Bool} {ts ts' : List Lexeme}
    (h : emptiness name isString ++ ts = emptiness name isString' ++ ts') :
    isString = isString' ∧ ts = ts' := by
  have hlen : name.name ≠ utf8 "len" := by cases name <;> decide
  cases isString <;> cases isString' <;> simp_all [emptiness, word]

theorem Derives.of_string {q : Text} {ts rest : List Lexeme} {e : Expr}
    (h : Derives .operand (.string q :: ts) e rest) :
    ∃ s, unquoted? q = some s ∧ e = .quoted s ∧ rest = ts := by
  generalize hts : Lexeme.string q :: ts = us at h
  cases h with
  | literal h => cases hts; exact ⟨_, h, rfl, rfl⟩
  | _ => cases hts

theorem Derives.of_name {n : Text} {ts rest : List Lexeme} {e : Expr}
    (h : Derives .operand (.name n :: ts) e rest) :
    (n = utf8 "nil" ∧ e = .nil ∧ rest = ts) ∨
    (∃ l : Local, n = l.name ∧ e = .bound l ∧ rest = ts) ∨
    (n = utf8 "s" ∧ ∃ hole, isHoleName hole = true ∧ e = .read hole ∧
      ts = sign "." :: .name (utf8 "Get" ++ holeName hole) :: sign "(" :: sign ")" :: rest) ∨
    ((n = utf8 "runtime" ∨ n = utf8 "vdom") ∧ ∃ function us args,
      ts = sign "." :: .name function :: sign "(" :: us ∧ applied n function args = some e ∧
        DerivesAll .sum us args (sign ")" :: rest)) := by
  generalize hts : Lexeme.name n :: ts = us at h
  cases h with
  | nil => cases hts; exact .inl ⟨rfl, rfl, rfl⟩
  | bound l => cases hts; exact .inr (.inl ⟨l, rfl, rfl, rfl⟩)
  | read hole => cases hts; exact .inr (.inr (.inl ⟨rfl, _, hole, rfl, rfl⟩))
  | call hargs happlied =>
    cases hts
    exact .inr (.inr (.inr ⟨applied_package happlied, _, _, _, rfl, happlied, hargs⟩))
  | _ => cases hts

theorem Derives.of_bracket {ts rest : List Lexeme} {e : Expr}
    (h : Derives .operand
      (sign "[" :: sign "]" :: word "html" :: sign "." :: word "Attribute" :: sign "\x7b" :: ts) e rest) :
    ∃ items, e = .attributes items ∧ DerivesAll .entry ts items (sign "\x7d" :: rest) := by
  generalize hts : sign "[" :: _ = us at h
  cases h with
  | attributes h => cases hts; exact ⟨_, rfl, h⟩
  | _ => cases hts

theorem Derives.of_func {n : Text} {ts rest : List Lexeme} {e : Expr}
    (h : Derives .operand
      (reserved "func" :: sign "(" :: sign ")" :: sign "[" :: sign "]" :: sign "*" ::
        word "html" :: sign "." :: word "Node" :: sign "\x7b" :: .name n :: sign ":=" :: ts) e rest) :
    ∃ name isString us value result, n = name.name ∧ e = .unlessEmpty name value isString result ∧
      Derives .sum ts value (semicolonMark :: reserved "if" :: (emptiness name isString ++
        sign "\x7b" :: reserved "return" :: word "nil" :: semicolonMark :: sign "\x7d" ::
          semicolonMark :: reserved "return" :: us)) ∧
      Derives .sum us result
        (semicolonMark :: sign "\x7d" :: sign "(" :: sign ")" :: rest) := by
  generalize hts : reserved "func" :: _ = us at h
  cases h with
  | unlessEmpty hv hr =>
    simp only [List.cons.injEq, true_and, Lexeme.name.injEq] at hts
    obtain ⟨hn, rfl⟩ := hts
    exact ⟨_, _, _, _, _, hn, rfl, hv, hr⟩
  | _ => cases hts

theorem Derives.of_entry {q : Text} {ts rest : List Lexeme} {e : Expr}
    (h : Derives .entry
      (sign "\x7b" :: word "Key" :: sign ":" :: .string q :: sign "," :: word "Val" :: sign ":" :: ts)
      e rest) :
    ∃ key value, unquoted? q = some key ∧ e = .item [] key value ∧
      Derives .sum ts value (sign "\x7d" :: rest) := by
  generalize hts : sign "\x7b" :: _ = us at h
  cases h with
  | entry hk hv => cases hts; exact ⟨_, _, hk, rfl, hv⟩
  | entryIn =>
    have hword : word "Key" = word "Namespace" := (List.cons.inj (List.cons.inj hts).2).1
    exact absurd hword (by decide)

theorem Derives.of_entryIn {q q' : Text} {ts rest : List Lexeme} {e : Expr}
    (h : Derives .entry
      (sign "\x7b" :: word "Namespace" :: sign ":" :: .string q :: sign "," :: word "Key" ::
        sign ":" :: .string q' :: sign "," :: word "Val" :: sign ":" :: ts)
      e rest) :
    ∃ ns key value, unquoted? q = some ns ∧ unquoted? q' = some key ∧ e = .item ns key value ∧
      Derives .sum ts value (sign "\x7d" :: rest) := by
  generalize hts : sign "\x7b" :: _ = us at h
  cases h with
  | entryIn hn hk hv => cases hts; exact ⟨_, _, _, hn, hk, rfl, hv⟩
  | entry =>
    have hword : word "Namespace" = word "Key" := (List.cons.inj (List.cons.inj hts).2).1
    exact absurd hword (by decide)

theorem Derives.of_sum {ts rest : List Lexeme} {e : Expr} (h : Derives .sum ts e rest) :
    ∃ first us, Derives .operand ts first us ∧ DerivesSum first us e rest := by
  generalize hform : Form.sum = form at h
  cases h with
  | sum h hs => exact ⟨_, _, h, hs⟩
  | _ => cases hform

def closes (ts : List Lexeme) : Bool :=
  ts.head?.any fun l => l = sign ")" || l = sign "\x7d"

def adds (ts : List Lexeme) : Bool :=
  ts.head? = some (sign "+")

theorem closes_eq_false_of_derives {form : Form} {ts rest : List Lexeme} {e : Expr}
    (h : Derives form ts e rest) : closes ts = false := by
  have operand {form : Form} {ts rest : List Lexeme} {e : Expr} (h : Derives form ts e rest)
      (hform : form ≠ .sum) : closes ts = false := by
    cases h with
    | sum => exact absurd rfl hform
    | _ => rfl
  cases form with
  | sum =>
    obtain ⟨first, us, h, -⟩ := h.of_sum
    exact operand h (by decide)
  | _ => exact operand h (by decide)

theorem adds_eq_false_of_closes {ts : List Lexeme} (h : closes ts = true) : adds ts = false := by
  cases ts with
  | nil => rfl
  | cons l ts =>
    simp only [closes, List.head?_cons, Option.any_some, Bool.or_eq_true, decide_eq_true_eq] at h
    rcases h with rfl | rfl <;> rfl

theorem not_applied {package function : Text} {args : List Expr} {e : Expr}
    (hr : package ≠ utf8 "runtime") (hv : package ≠ utf8 "vdom") :
    applied package function args ≠ some e := by
  intro h
  rcases applied_package h with h | h
  · exact hr h
  · exact hv h

mutual

theorem Derives.unique {form : Form} {ts rest rest' : List Lexeme} {e e' : Expr} :
    Derives form ts e rest → Derives form ts e' rest' →
      (form = .sum → adds rest = false ∧ adds rest' = false) → e = e' ∧ rest = rest'
  | .literal h, h', _ => by
    obtain ⟨s, hs, rfl, rfl⟩ := h'.of_string
    rw [h, Option.some.injEq] at hs
    exact ⟨by rw [hs], rfl⟩
  | .nil, h', _ => by
    rcases h'.of_name with ⟨-, rfl, rfl⟩ | ⟨l, hl, -⟩ | ⟨hn, -⟩ | ⟨hn | hn, -⟩
    · exact ⟨rfl, rfl⟩
    · cases l <;> exact absurd hl (by decide)
    · exact absurd hn (by decide)
    · exact absurd hn (by decide)
    · exact absurd hn (by decide)
  | .bound l, h', _ => by
    rcases h'.of_name with ⟨hn, -⟩ | ⟨l', hl, rfl, rfl⟩ | ⟨hn, -⟩ | ⟨hn | hn, -⟩
    · cases l <;> exact absurd hn (by decide)
    · rw [name_injective hl]
      exact ⟨rfl, rfl⟩
    · cases l <;> exact absurd hn (by decide)
    · cases l <;> exact absurd hn (by decide)
    · cases l <;> exact absurd hn (by decide)
  | .read hhole, h', _ => by
    rcases h'.of_name with ⟨hn, -⟩ | ⟨l, hl, -⟩ | ⟨-, hole', hhole', rfl, hts⟩ | ⟨hn | hn, -⟩
    · exact absurd hn (by decide)
    · cases l <;> exact absurd hl (by decide)
    · simp only [List.cons.injEq, Lexeme.name.injEq, List.append_cancel_left_eq, true_and] at hts
      rw [holeName_injective hhole hhole' hts.1]
      exact ⟨rfl, hts.2⟩
    · exact absurd hn (by decide)
    · exact absurd hn (by decide)
  | .call hargs happlied, h', _ => by
    rcases h'.of_name with ⟨rfl, -⟩ | ⟨l, rfl, -⟩ | ⟨rfl, -⟩ | ⟨-, f, us, args, hts, happlied', hargs'⟩
    · exact absurd happlied (not_applied (by decide) (by decide))
    · cases l <;> exact absurd happlied (not_applied (by decide) (by decide))
    · exact absurd happlied (not_applied (by decide) (by decide))
    · simp only [List.cons.injEq, Lexeme.name.injEq, true_and] at hts
      obtain ⟨rfl, rfl⟩ := hts
      obtain ⟨rfl, hrest⟩ := hargs.unique hargs' rfl rfl
      rw [happlied, Option.some.injEq] at happlied'
      exact ⟨happlied', (List.cons.inj hrest).2⟩
  | .attributes h, h', _ => by
    obtain ⟨items, rfl, hitems⟩ := h'.of_bracket
    obtain ⟨rfl, hrest⟩ := h.unique hitems rfl rfl
    exact ⟨rfl, (List.cons.inj hrest).2⟩
  | .unlessEmpty hv hr, h', _ => by
    obtain ⟨l, isString, us, value, result, hl, rfl, hv', hr'⟩ := h'.of_func
    obtain rfl := name_injective hl
    obtain ⟨rfl, hrest⟩ := hv.unique hv' fun _ => ⟨rfl, rfl⟩
    simp only [List.cons.injEq, true_and] at hrest
    obtain ⟨rfl, hus⟩ := emptiness_append_injective hrest
    simp only [List.cons.injEq, true_and] at hus
    subst hus
    obtain ⟨rfl, hrest⟩ := hr.unique hr' fun _ => ⟨rfl, rfl⟩
    simp only [List.cons.injEq, true_and] at hrest
    exact ⟨rfl, hrest⟩
  | .sum h hs, h', hfollow => by
    obtain ⟨first, us, hfirst, hs'⟩ := h'.of_sum
    obtain ⟨rfl, rfl⟩ := h.unique hfirst (by simp)
    exact hs.unique hs' (hfollow rfl).1 (hfollow rfl).2
  | .entry hk hv, h', _ => by
    obtain ⟨key, value, hk', rfl, hv'⟩ := h'.of_entry
    obtain ⟨rfl, hrest⟩ := hv.unique hv' fun _ => ⟨rfl, rfl⟩
    rw [hk, Option.some.injEq] at hk'
    exact ⟨by rw [hk'], (List.cons.inj hrest).2⟩
  | .entryIn hn hk hv, h', _ => by
    obtain ⟨ns, key, value, hn', hk', rfl, hv'⟩ := h'.of_entryIn
    obtain ⟨rfl, hrest⟩ := hv.unique hv' fun _ => ⟨rfl, rfl⟩
    rw [hn, Option.some.injEq] at hn'
    rw [hk, Option.some.injEq] at hk'
    exact ⟨by rw [hn', hk'], (List.cons.inj hrest).2⟩

theorem DerivesSum.unique {left e e' : Expr} {ts rest rest' : List Lexeme} :
    DerivesSum left ts e rest → DerivesSum left ts e' rest' → adds rest = false →
      adds rest' = false → e = e' ∧ rest = rest'
  | .done, h', hrest, hrest' => by
    cases h' with
    | done => exact ⟨rfl, rfl⟩
    | add => cases hrest
  | .add h hs, h', hrest, hrest' => by
    generalize hts : sign "+" :: _ = us at h'
    cases h' with
    | done => rw [← hts] at hrest'; cases hrest'
    | add h' hs' =>
      cases hts
      obtain ⟨rfl, rfl⟩ := h.unique h' (by simp)
      exact hs.unique hs' hrest hrest'

theorem DerivesAll.unique {form : Form} {ts rest rest' : List Lexeme} {es es' : List Expr} :
    DerivesAll form ts es rest → DerivesAll form ts es' rest' → closes rest = true →
      closes rest' = true → es = es' ∧ rest = rest'
  | .none, h', hrest, _ => by
    cases h' with
    | none => exact ⟨rfl, rfl⟩
    | last h' | more h' => rw [closes_eq_false_of_derives h'] at hrest; cases hrest
  | .last h, h', hrest, hrest' => by
    have hadds := adds_eq_false_of_closes hrest
    cases h' with
    | none => rw [closes_eq_false_of_derives h] at hrest'; cases hrest'
    | last h' =>
      obtain ⟨rfl, rfl⟩ := h.unique h' fun _ => ⟨hadds, adds_eq_false_of_closes hrest'⟩
      exact ⟨rfl, rfl⟩
    | more h' hs' =>
      obtain ⟨-, rfl⟩ := h.unique h' fun _ => ⟨hadds, rfl⟩
      cases hrest
  | .more h hs, h', hrest, hrest' => by
    cases h' with
    | none => rw [closes_eq_false_of_derives h] at hrest'; cases hrest'
    | last h' =>
      obtain ⟨-, rfl⟩ := h.unique h' fun _ => ⟨rfl, adds_eq_false_of_closes hrest'⟩
      cases hrest'
    | more h' hs' =>
      obtain ⟨rfl, hcons⟩ := h.unique h' fun _ => ⟨rfl, rfl⟩
      cases hcons
      obtain ⟨rfl, rfl⟩ := hs.unique hs' hrest hrest'
      exact ⟨rfl, rfl⟩

end

def Parses (source : Text) (e : Expr) : Prop :=
  Derives .sum (Lexeme.ofText source) e [semicolonMark]

theorem Parses.unique {source : Text} {e e' : Expr} (h : Parses source e) (h' : Parses source e') :
    e = e' :=
  (Derives.unique h h' fun _ => ⟨rfl, rfl⟩).1

end Expr

end Stencil
