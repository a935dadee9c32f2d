import Stencil.Proofs.Template.Reading
import Stencil.Proofs.Unit.Lexing
import Stencil.Proofs.Unit.Syntax

namespace Stencil.Expr

open Ascii Text
open Lexeme (word reserved sign semicolonMark Reads Stops stops_append Piece)

structure Spelled (form : Form) (s : Text) (e : Expr) : Prop where
  ascii : s.head?.any (·.toNat < 0x80) = true
  phrase : ∃ ts, (∀ before rest, Stops rest → Reads before s ts true rest) ∧
    ∀ tail, Derives form (ts ++ tail) e tail

def SpelledAll (form : Form) (s : Text) (es : List Expr) : Prop :=
  ∃ ts after, (∀ rest, Stops rest → Reads false s ts after rest) ∧
    ∀ tail, DerivesAll form (ts ++ tail) es tail

theorem Spelled.parses {s : Text} {e : Expr} (h : Spelled .sum s e) : Parses s e := by
  obtain ⟨ts, hreads, hderives⟩ := h.phrase
  rw [Parses, Lexeme.ofText_of_reads h.ascii (hreads false [] trivial)]
  exact hderives _

theorem Spelled.sum {s : Text} {e : Expr} (h : Spelled .operand s e) : Spelled .sum s e := by
  obtain ⟨ts, hreads, hderives⟩ := h.phrase
  exact ⟨h.ascii, ts, hreads, fun tail => .sum (hderives tail) .done⟩

/-! Lists -/

theorem reads_comma (rest : Text) : Reads true (utf8 ", ") [sign ","] false rest :=
  Lexeme.reads_fixed [.mark (utf8 ","), .space] rfl (by decide) rfl rfl rest

theorem reads_comma_line (rest : Text) : Reads true (utf8 ",\n") [sign ","] false rest :=
  Lexeme.reads_fixed [.mark (utf8 ","), .line] rfl (by decide) rfl rfl rest

theorem spelledAll_nil (form : Form) : SpelledAll form [] [] :=
  ⟨[], false, fun rest _ => Lexeme.reads_nil false rest, fun _ => .none⟩

theorem Spelled.single {form : Form} {s : Text} {e : Expr} (h : Spelled form s e) :
    SpelledAll form s [e] := by
  obtain ⟨ts, hreads, hderives⟩ := h.phrase
  exact ⟨ts, true, hreads false, fun tail => .last (hderives tail)⟩

theorem Spelled.cons_of_reads {form : Form} {s comma s' : Text} {e : Expr} {es : List Expr}
    (hcomma : ∀ rest, Reads true comma [sign ","] false rest)
    (hstops : ∀ rest, Stops (comma ++ rest))
    (h : Spelled form s e) (hs : SpelledAll form s' es) :
    SpelledAll form (s ++ (comma ++ s')) (e :: es) := by
  obtain ⟨ts, hreads, hderives⟩ := h.phrase
  obtain ⟨us, after, hreads', hderives'⟩ := hs
  refine ⟨ts ++ ([sign ","] ++ us), after, fun rest hrest => ?_, fun tail => ?_⟩
  · refine (hreads false _ ?_).append ((hcomma _).append (hreads' rest hrest))
    rw [List.append_assoc]
    exact hstops _
  · rw [List.append_assoc]
    exact .more (hderives _) (hderives' tail)

theorem Spelled.cons {form : Form} {s s' : Text} {e : Expr} {es : List Expr}
    (h : Spelled form s e) (hs : SpelledAll form s' es) :
    SpelledAll form (s ++ (utf8 ", " ++ s')) (e :: es) :=
  h.cons_of_reads reads_comma (stops_append rfl) hs

theorem Spelled.consLine {form : Form} {s s' : Text} {e : Expr} {es : List Expr}
    (h : Spelled form s e) (hs : SpelledAll form s' es) :
    SpelledAll form (s ++ (utf8 ",\n" ++ s')) (e :: es) :=
  h.cons_of_reads reads_comma_line (stops_append rfl) hs

theorem SpelledAll.line {form : Form} {s : Text} {es : List Expr} (h : SpelledAll form s es) :
    SpelledAll form (newline :: s) es := by
  obtain ⟨ts, after, hreads, hderives⟩ := h
  refine ⟨ts, after, fun rest hrest => ?_, hderives⟩
  exact (Lexeme.reads_line false _).append (hreads rest hrest)

theorem spelledAll_joined {form : Form} (src : Expr → Text) {es : List Expr}
    (h : ∀ e ∈ es, Spelled form (src e) e) :
    SpelledAll form (joinWith (utf8 ", ") (es.map src)) es := by
  induction es with
  | nil => exact spelledAll_nil form
  | cons e es ih =>
    have he := h e (by simp)
    have ih := ih fun e he => h e (by simp [he])
    cases es with
    | nil => exact he.single
    | cons e' es =>
      have hs := he.cons ih
      rwa [← List.append_assoc] at hs

theorem spelledAll_lines {e : Expr} {es : List Expr} (he : Spelled .sum (source e) e)
    (hes : ∀ e ∈ es, Spelled .sum (source e) e) :
    SpelledAll .sum (source e ++ (sourceLines es ++ utf8 ",\n")) (e :: es) := by
  induction es generalizing e with
  | nil =>
    have h := he.consLine (spelledAll_nil .sum)
    rwa [List.append_nil] at h
  | cons e' es ih =>
    have ih := ih (hes e' (by simp)) fun e he => hes e (by simp [he])
    have h := he.consLine ih
    simpa only [sourceLines, List.append_assoc] using h

/-! Operands -/

theorem head?_append_ascii {s t : Text} (h : s.head?.any (·.toNat < 0x80) = true) :
    (s ++ t).head?.any (·.toNat < 0x80) = true := by
  cases s with
  | nil => cases h
  | cons => exact h

theorem spelled_quoted (s : Text) : Spelled .operand (Text.quoted s) (.quoted s) where
  ascii := rfl
  phrase := ⟨[.string (Text.quoted s)], fun before rest _ => Lexeme.reads_quoted before s rest,
    fun _ => .literal (Lexeme.unquoted?_quoted s)⟩

theorem spelled_nil : Spelled .operand (source .nil) .nil where
  ascii := rfl
  phrase := ⟨[word "nil"], fun before _ hrest => Lexeme.reads_word rfl hrest before, fun _ => .nil⟩

theorem spelled_bound (name : Local) : Spelled .operand (source (.bound name)) (.bound name) where
  ascii := by cases name <;> rfl
  phrase := by
    refine ⟨[.name name.name], fun before rest hrest => ?_, fun _ => .bound name⟩
    cases name <;> exact Lexeme.reads_word rfl hrest before

theorem reads_close (before : Bool) (rest : Text) : Reads before (utf8 ")") [sign ")"] true rest :=
  Lexeme.reads_fixed [.mark (utf8 ")")] rfl (by decide) rfl rfl rest

set_option maxRecDepth 4096 in
theorem isWordByte_toUpper {b : UInt8} (h : Ascii.isLower b = true) :
    Lexeme.isWordByte (Ascii.toUpper b) = true :=
  Lexeme.forall_byte
    (p := fun b => Ascii.isLower b = true → Lexeme.isWordByte (Ascii.toUpper b) = true)
    (by decide) b h

theorem isWord_getter {hole : Text} (h : isHoleName hole = true) :
    Lexeme.isWord (utf8 "Get" ++ holeName hole) = true := by
  cases hole with
  | nil => cases h
  | cons c hole =>
    simp only [isHoleName, Bool.and_eq_true] at h
    have hrest : hole.all Lexeme.isWordByte = true := h.2
    have hname : (holeName (c :: hole)).all Lexeme.isWordByte = true := by
      rw [holeName, List.all_cons, isWordByte_toUpper h.1, hrest, Bool.and_self]
    change (true && (true && (holeName (c :: hole)).all Lexeme.isWordByte)) = true
    rw [hname, Bool.and_self, Bool.and_self]

theorem ofWord_getter (name : Text) :
    Lexeme.ofWord (utf8 "Get" ++ name) = .name (utf8 "Get" ++ name) := by
  have hkeyword : Name.keywords.contains (utf8 "Get" ++ name) = false := rfl
  rw [Lexeme.ofWord, hkeyword]
  rfl

def getterPieces (hole : Text) : List Piece :=
  [.word (utf8 "s"), .mark (utf8 "."), .word (utf8 "Get" ++ holeName hole), .mark (utf8 "("),
    .mark (utf8 ")")]

theorem fitting_getterPieces {hole : Text} (h : isHoleName hole = true) :
    Lexeme.fitting (getterPieces hole) = true := by
  change (true && (true && ((Lexeme.isWord (utf8 "Get" ++ holeName hole) && true) && true))) = true
  rw [isWord_getter h]
  rfl

theorem spelled_read {hole : Text} (h : isHoleName hole = true) :
    Spelled .operand (source (.read hole)) (.read hole) where
  ascii := rfl
  phrase := by
    refine ⟨[word "s", sign ".", .name (utf8 "Get" ++ holeName hole), sign "(", sign ")"],
      fun before rest _ => ?_, fun tail => .read h⟩
    have hlexemes : Lexeme.lexemesOf before (getterPieces hole) =
        [word "s", sign ".", .name (utf8 "Get" ++ holeName hole), sign "(", sign ")"] := by
      simp only [getterPieces, Lexeme.lexemesOf, ofWord_getter]
      rfl
    have htext : (getterPieces hole).flatMap Piece.text = source (.read hole) := by
      have hget : utf8 "s.Get" = utf8 "s" ++ (utf8 "." ++ utf8 "Get") := rfl
      have hcall : utf8 "()" = utf8 "(" ++ utf8 ")" := rfl
      simp only [getterPieces, List.flatMap_cons, List.flatMap_nil, Piece.text, source, getter,
        hget, hcall, List.append_assoc, List.append_nil]
    exact Lexeme.reads_fixed _ htext (fitting_getterPieces h) hlexemes rfl rest

def callee (package function : String) : List Piece :=
  [.word (utf8 package), .mark (utf8 "."), .word (utf8 function), .mark (utf8 "(")]

structure Heads (package function : String) (head : Text) : Prop where
  text : (callee package function).flatMap Piece.text = head
  fits : Lexeme.fitting (callee package function) = true
  lexemes : ∀ before, Lexeme.lexemesOf before (callee package function) =
    [word package, sign ".", word function, sign "("]
  ascii : head.head?.any (·.toNat < 0x80) = true

theorem spelled_call {package function : String} {head inner : Text} {args : List Expr} {e : Expr}
    (hhead : Heads package function head) (hinner : SpelledAll .sum inner args)
    (happlied : applied (utf8 package) (utf8 function) args = some e) :
    Spelled .operand (head ++ inner ++ utf8 ")") e where
  ascii := head?_append_ascii (head?_append_ascii hhead.ascii)
  phrase := by
    obtain ⟨ts, after, hreads, hderives⟩ := hinner
    refine ⟨[word package, sign ".", word function, sign "("] ++ (ts ++ [sign ")"]),
      fun before rest _ => ?_, fun tail => ?_⟩
    · have hcallee := Lexeme.reads_fixed _ hhead.text hhead.fits (hhead.lexemes before) rfl
      rw [List.append_assoc]
      exact (hcallee _).append ((hreads _ (stops_append rfl _)).append (reads_close after rest))
    · refine .call ?_ happlied
      have h := hderives (sign ")" :: tail)
      rwa [List.append_cons] at h

theorem heads_text : Heads "vdom" "Text" (utf8 "vdom.Text(") :=
  ⟨rfl, by decide, fun _ => rfl, rfl⟩

theorem heads_comment : Heads "vdom" "Comment" (utf8 "vdom.Comment(") :=
  ⟨rfl, by decide, fun _ => rfl, rfl⟩

theorem heads_doctype : Heads "vdom" "Doctype" (utf8 "vdom.Doctype(") :=
  ⟨rfl, by decide, fun _ => rfl, rfl⟩

theorem heads_element : Heads "vdom" "Element" (utf8 "vdom.Element(") :=
  ⟨rfl, by decide, fun _ => rfl, rfl⟩

theorem heads_elementNS : Heads "vdom" "ElementNS" (utf8 "vdom.ElementNS(") :=
  ⟨rfl, by decide, fun _ => rfl, rfl⟩

theorem heads_concat : Heads "vdom" "Concat" (utf8 "vdom.Concat(") :=
  ⟨rfl, by decide, fun _ => rfl, rfl⟩

theorem heads_cloneAll : Heads "vdom" "CloneAll" (utf8 "vdom.CloneAll(") :=
  ⟨rfl, by decide, fun _ => rfl, rfl⟩

theorem heads_callString : Heads "runtime" "CallString" (utf8 "runtime.CallString(") :=
  ⟨rfl, by decide, fun _ => rfl, rfl⟩

theorem heads_callHTML : Heads "runtime" "CallHTML" (utf8 "runtime.CallHTML(") :=
  ⟨rfl, by decide, fun _ => rfl, rfl⟩

theorem spelled_text {e : Expr} (h : Spelled .sum (source e) e) :
    Spelled .operand (source (.text e)) (.text e) :=
  spelled_call heads_text h.single rfl

theorem spelled_comment (data : Text) : Spelled .operand (source (.comment data)) (.comment data) :=
  spelled_call heads_comment (spelled_quoted data).sum.single rfl

theorem spelled_cloneAll {e : Expr} (h : Spelled .sum (source e) e) :
    Spelled .operand (source (.cloneAll e)) (.cloneAll e) :=
  spelled_call heads_cloneAll h.single rfl

theorem spelled_doctype (name : Text) {attrs : Expr} (h : Spelled .sum (source attrs) attrs) :
    Spelled .operand (source (.doctype name attrs)) (.doctype name attrs) := by
  have hinner := (spelled_quoted name).sum.cons h.single
  have hcall := spelled_call (e := .doctype name attrs) heads_doctype hinner rfl
  simpa only [source, List.append_assoc] using hcall

theorem mapM_literal?_quoted (args : List Text) :
    (args.map Expr.quoted).mapM literal? = some args := by
  induction args with
  | nil => rfl
  | cons s args ih => simp only [List.map_cons, List.mapM_cons, ih, literal?]; rfl

theorem spelledAll_arguments (args : List Text) :
    SpelledAll .sum (arguments args) (args.map .quoted) := by
  have h : ∀ e ∈ args.map Expr.quoted, Spelled .sum (source e) e := by
    intro e he
    obtain ⟨s, -, rfl⟩ := List.mem_map.mp he
    exact (spelled_quoted s).sum
  have h := spelledAll_joined source h
  rwa [List.map_map] at h

theorem spelled_callString {f : Expr} (h : Spelled .sum (source f) f) (args : List Text) :
    Spelled .operand (source (.callString f args)) (.callString f args) := by
  have happlied : applied (utf8 "runtime") (utf8 "CallString") (f :: args.map .quoted) =
      some (.callString f args) := by
    simp only [applied, if_true, mapM_literal?_quoted, Option.map_some]
  have hcall := spelled_call heads_callString (h.cons (spelledAll_arguments args)) happlied
  simpa only [source, List.append_assoc] using hcall

theorem spelled_callFragment {f : Expr} (h : Spelled .sum (source f) f) (args : List Text) :
    Spelled .operand (source (.callFragment f args)) (.callFragment f args) := by
  have hname : utf8 "CallHTML" ≠ utf8 "CallString" := by decide
  have happlied : applied (utf8 "runtime") (utf8 "CallHTML") (f :: args.map .quoted) =
      some (.callFragment f args) := by
    simp only [applied, if_true, if_neg hname, mapM_literal?_quoted, Option.map_some]
  have hcall := spelled_call heads_callHTML (h.cons (spelledAll_arguments args)) happlied
  simpa only [source, List.append_assoc] using hcall

theorem spelled_concat {e : Expr} {es : List Expr} (h : Spelled .sum (source e) e)
    (hs : ∀ e ∈ es, Spelled .sum (source e) e) :
    Spelled .operand (source (.concat (e :: es))) (.concat (e :: es)) := by
  have hinner := (spelledAll_lines h hs).line
  have hcall := spelled_call (e := .concat (e :: es)) heads_concat hinner rfl
  have hlines : (sourceLines (e :: es)).drop 1 = newline :: (source e ++ sourceLines es) := rfl
  have hend : utf8 ",\n)" = utf8 ",\n" ++ utf8 ")" := rfl
  simpa only [source, hlines, hend, List.append_assoc, List.cons_append] using hcall

theorem spelledAll_children {s : Text} {e : Expr} {children : List Expr} (h : Spelled .sum s e)
    (hs : ∀ e ∈ children, Spelled .sum (source e) e) :
    SpelledAll .sum
      (s ++ (sourceLines children ++ (if children.isEmpty then [] else utf8 ",\n")))
      (e :: children) := by
  cases children with
  | nil => simpa [sourceLines] using h.single
  | cons c children =>
    have hlines := spelledAll_lines (hs c List.mem_cons_self)
      fun e he => hs e (List.mem_cons_of_mem c he)
    simpa only [sourceLines, List.isEmpty_cons, Bool.false_eq_true, if_false, List.append_assoc]
      using h.consLine hlines

theorem spelled_element (ns tag : Text) {attrs : Expr} {children : List Expr}
    (h : Spelled .sum (source attrs) attrs) (hs : ∀ e ∈ children, Spelled .sum (source e) e) :
    Spelled .operand (source (.element ns tag attrs children)) (.element ns tag attrs children) := by
  have hinner := (spelled_quoted tag).sum.cons (spelledAll_children h hs)
  cases ns with
  | nil =>
    have hcall := spelled_call (e := .element [] tag attrs children) heads_element hinner rfl
    simpa only [source, elementHead, List.isEmpty_nil, if_true, List.append_assoc] using hcall
  | cons b ns =>
    have hcall := spelled_call (e := .element (b :: ns) tag attrs children) heads_elementNS
      ((spelled_quoted (b :: ns)).sum.cons hinner) rfl
    simpa only [source, elementHead, List.isEmpty_cons, Bool.false_eq_true, if_false,
      List.append_assoc] using hcall

/-! Attributes -/

theorem reads_brace (before : Bool) (rest : Text) :
    Reads before (utf8 "\x7d") [sign "\x7d"] true rest :=
  Lexeme.reads_fixed [.mark (utf8 "\x7d")] rfl (by decide) rfl rfl rest

theorem reads_openBrace (before : Bool) (rest : Text) :
    Reads before (utf8 "\x7b") [sign "\x7b"] false rest :=
  Lexeme.reads_fixed [.mark (utf8 "\x7b")] rfl (by decide) rfl rfl rest

theorem reads_label (label : String) {s : Text} (before : Bool)
    (hs : utf8 label ++ utf8 ": " = s)
    (hfit : Lexeme.fitting [.word (utf8 label), .mark (utf8 ":"), .space] = true)
    (hword : Lexeme.ofWord (utf8 label) = word label) (rest : Text) :
    Reads before s [word label, sign ":"] false rest := by
  refine Lexeme.reads_fixed [.word (utf8 label), .mark (utf8 ":"), .space] ?_ hfit ?_ rfl rest
  · rw [← hs]
    rfl
  · simp only [Lexeme.lexemesOf, hword]
    rfl

theorem reads_keyed (key : Text) {value : Expr} {ts : List Lexeme}
    (hvalue : ∀ before rest, Stops rest → Reads before (source value) ts true rest) (rest : Text) :
    Reads false
      (utf8 "Key: " ++ (Text.quoted key ++ (utf8 ", " ++ (utf8 "Val: " ++
        (source value ++ utf8 "\x7d")))))
      ([word "Key", sign ":"] ++ ([.string (Text.quoted key)] ++
        ([sign ","] ++ ([word "Val", sign ":"] ++ (ts ++ [sign "\x7d"]))))) true rest := by
  have hkey := reads_label "Key" false (rfl : _ = utf8 "Key: ") (by decide) rfl
  have hval := reads_label "Val" false (rfl : _ = utf8 "Val: ") (by decide) rfl
  have hend := (hvalue false _ (stops_append rfl _)).append (reads_brace true rest)
  exact (hkey _).append ((Lexeme.reads_quoted false key _).append
    ((reads_comma _).append ((hval _).append hend)))

theorem spelled_item (ns key : Text) {value : Expr} (h : Spelled .sum (source value) value) :
    Spelled .entry (source (.item ns key value)) (.item ns key value) where
  ascii := rfl
  phrase := by
    obtain ⟨ts, hreads, hderives⟩ := h.phrase
    have hval : utf8 ", Val: " = utf8 ", " ++ utf8 "Val: " := rfl
    have htail : ∀ tail,
        Derives .sum (ts ++ [sign "\x7d"] ++ tail) value (sign "\x7d" :: tail) := by
      intro tail
      rw [List.append_assoc]
      exact hderives _
    cases ns with
    | nil =>
      refine ⟨[sign "\x7b"] ++ ([word "Key", sign ":"] ++ ([.string (Text.quoted key)] ++
        ([sign ","] ++ ([word "Val", sign ":"] ++ (ts ++ [sign "\x7d"]))))),
        fun before rest _ => ?_, fun tail => .entry (Lexeme.unquoted?_quoted key) (htail tail)⟩
      have hread := (reads_openBrace before _).append (reads_keyed key hreads rest)
      simpa only [source, itemHead, List.isEmpty_nil, if_true, List.append_nil, hval,
        List.append_assoc] using hread
    | cons b ns =>
      have hns := reads_label "Namespace" false (rfl : _ = utf8 "Namespace: ") (by decide) rfl
      refine ⟨[sign "\x7b"] ++ ([word "Namespace", sign ":"] ++ ([.string (Text.quoted (b :: ns))] ++
        ([sign ","] ++ ([word "Key", sign ":"] ++ ([.string (Text.quoted key)] ++
          ([sign ","] ++ ([word "Val", sign ":"] ++ (ts ++ [sign "\x7d"])))))))),
        fun before rest _ => ?_, fun tail =>
        .entryIn (Lexeme.unquoted?_quoted (b :: ns)) (Lexeme.unquoted?_quoted key) (htail tail)⟩
      have hread := (reads_openBrace before _).append ((hns _).append
        ((Lexeme.reads_quoted false (b :: ns) _).append ((reads_comma _).append
          (reads_keyed key hreads rest))))
      simpa only [source, itemHead, List.isEmpty_cons, Bool.false_eq_true, if_false, hval,
        List.append_assoc] using hread

theorem sourceItems_eq (items : List Expr) :
    sourceItems items = joinWith (utf8 ", ") (items.map source) := by
  induction items with
  | nil => rfl
  | cons e items ih =>
    cases items with
    | nil => rfl
    | cons e' items => rw [sourceItems, ih]; rfl; exact List.cons_ne_nil _ _

theorem spelled_attributes {items : List Expr} (h : ∀ e ∈ items, Spelled .entry (source e) e) :
    Spelled .operand (source (.attributes items)) (.attributes items) where
  ascii := rfl
  phrase := by
    obtain ⟨ts, after, hreads, hderives⟩ := spelledAll_joined source h
    have hopen (before : Bool) (rest : Text) : Reads before (utf8 "[]html.Attribute\x7b")
        [sign "[", sign "]", word "html", sign ".", word "Attribute", sign "\x7b"] false rest :=
      Lexeme.reads_fixed [.mark (utf8 "["), .mark (utf8 "]"), .word (utf8 "html"), .mark (utf8 "."),
        .word (utf8 "Attribute"), .mark (utf8 "\x7b")] rfl (by decide) rfl rfl rest
    refine ⟨[sign "[", sign "]", word "html", sign ".", word "Attribute", sign "\x7b"] ++
      (ts ++ [sign "\x7d"]), fun before rest _ => ?_, fun tail => .attributes ?_⟩
    · have hread := (hopen before _).append
        ((hreads _ (stops_append rfl _)).append (reads_brace after rest))
      simpa only [source, sourceItems_eq, List.append_assoc] using hread
    · have hitems := hderives (sign "\x7d" :: tail)
      rwa [List.append_cons] at hitems

/-! Sums -/

theorem DerivesSum.snoc {left e r : Expr} {ts us vs rest : List Lexeme} :
    DerivesSum left ts e us → us = sign "+" :: vs → Derives .operand vs r rest →
      DerivesSum left ts (.add e r) rest
  | .done, hus, hr => hus ▸ .add hr .done
  | .add h hs, hus, hr => .add h (hs.snoc hus hr)

theorem spelled_add {l r : Expr} (hl : Spelled .sum (source l) l)
    (hr : Spelled .operand (source r) r) : Spelled .sum (source (.add l r)) (.add l r) where
  ascii := head?_append_ascii (head?_append_ascii hl.ascii)
  phrase := by
    obtain ⟨ts, hreads, hderives⟩ := hl.phrase
    obtain ⟨us, hreads', hderives'⟩ := hr.phrase
    have hplus (rest : Text) : Reads true (utf8 " + ") [sign "+"] false rest :=
      Lexeme.reads_fixed [.space, .mark (utf8 "+"), .space] rfl (by decide) rfl rfl rest
    refine ⟨ts ++ ([sign "+"] ++ us), fun before rest hrest => ?_, fun tail => ?_⟩
    · have hread := (hreads before _ (stops_append rfl _)).append
        ((hplus _).append (hreads' false rest hrest))
      simpa only [source, List.append_assoc] using hread
    · rw [List.append_assoc]
      obtain ⟨first, vs, hfirst, hs⟩ := (hderives ([sign "+"] ++ us ++ tail)).of_sum
      exact .sum hfirst (hs.snoc rfl (hderives' tail))

/-! Function literals -/

theorem reads_emptyTest (name : Local) (isString : Bool) (rest : Text) :
    Reads false (emptyTest name isString) (emptiness name isString) true (space :: rest) := by
  cases isString with
  | true =>
    have hname (rest : Text) : Reads false (name.name ++ utf8 " == ") [.name name.name, sign "=="]
        false rest := by
      apply Lexeme.reads_fixed [.word name.name, .space, .mark (utf8 "=="), .space]
      · rfl
      all_goals cases name <;> decide
    have hread := (hname _).append (Lexeme.reads_quoted false [] (space :: rest))
    have htest : utf8 " == \"\"" = utf8 " == " ++ Text.quoted [] := rfl
    rw [emptyTest, if_pos rfl, htest, ← List.append_assoc]
    exact hread
  | false =>
    have hname (rest : Text) : Reads false (utf8 "len(" ++ name.name ++ utf8 ") == ")
        [word "len", sign "(", .name name.name, sign ")", sign "=="] false rest := by
      apply Lexeme.reads_fixed [.word (utf8 "len"), .mark (utf8 "("), .word name.name,
        .mark (utf8 ")"), .space, .mark (utf8 "=="), .space]
      all_goals cases name <;> decide
    have hread := (hname _).append (Lexeme.reads_zero false rest)
    have htest : utf8 ") == 0" = utf8 ") == " ++ utf8 "0" := rfl
    rw [emptyTest, if_neg (by decide), htest, ← List.append_assoc]
    exact hread

theorem reads_funcHead (before : Bool) (name : Local) (rest : Text) :
    Reads before (utf8 "func() []*html.Node \x7b\n" ++ (name.name ++ utf8 " := "))
      [reserved "func", sign "(", sign ")", sign "[", sign "]", sign "*", word "html", sign ".",
        word "Node", sign "\x7b", .name name.name, sign ":="] false rest := by
  apply Lexeme.reads_fixed [.word (utf8 "func"), .mark (utf8 "("), .mark (utf8 ")"), .space,
    .mark (utf8 "["), .mark (utf8 "]"), .mark (utf8 "*"), .word (utf8 "html"), .mark (utf8 "."),
    .word (utf8 "Node"), .space, .mark (utf8 "\x7b"), .line, .word name.name, .space,
    .mark (utf8 ":="), .space]
  all_goals cases name <;> cases before <;> decide

theorem spelled_unlessEmpty (name : Local) (isString : Bool) {value result : Expr}
    (hv : Spelled .sum (source value) value) (hr : Spelled .sum (source result) result) :
    Spelled .operand (source (.unlessEmpty name value isString result))
      (.unlessEmpty name value isString result) where
  ascii := rfl
  phrase := by
    obtain ⟨ts, hreads, hderives⟩ := hv.phrase
    obtain ⟨us, hreads', hderives'⟩ := hr.phrase
    have hif (rest : Text) : Reads true (utf8 "\nif ") [semicolonMark, reserved "if"] false rest :=
      Lexeme.reads_fixed [.line, .word (utf8 "if"), .space] rfl (by decide) rfl rfl rest
    have hreturn (rest : Text) : Reads true (utf8 " \x7b\nreturn nil\n\x7d\nreturn ")
        [sign "\x7b", reserved "return", word "nil", semicolonMark, sign "\x7d", semicolonMark,
          reserved "return"] true rest :=
      Lexeme.reads_fixed [.space, .mark (utf8 "\x7b"), .line, .word (utf8 "return"), .space,
        .word (utf8 "nil"), .line, .mark (utf8 "\x7d"), .line, .word (utf8 "return"), .space]
        rfl (by decide) rfl rfl rest
    have hend (rest : Text) : Reads true (utf8 "\n\x7d()")
        [semicolonMark, sign "\x7d", sign "(", sign ")"] true rest :=
      Lexeme.reads_fixed [.line, .mark (utf8 "\x7d"), .mark (utf8 "("), .mark (utf8 ")")]
        rfl (by decide) rfl rfl rest
    refine ⟨[reserved "func", sign "(", sign ")", sign "[", sign "]", sign "*", word "html", sign ".",
        word "Node", sign "\x7b", .name name.name, sign ":="] ++ (ts ++
        ([semicolonMark, reserved "if"] ++ (emptiness name isString ++
          ([sign "\x7b", reserved "return", word "nil", semicolonMark, sign "\x7d", semicolonMark,
            reserved "return"] ++ (us ++ [semicolonMark, sign "\x7d", sign "(", sign ")"]))))),
      fun before rest _ => ?_, fun tail => ?_⟩
    · have hread := (reads_funcHead before name _).append ((hreads false _ (stops_append rfl _)).append
        ((hif _).append ((reads_emptyTest name isString _).append ((hreturn _).append
          ((hreads' true _ (stops_append rfl _)).append (hend rest))))))
      simpa only [source, List.append_assoc] using hread
    · have hvalue := hderives (semicolonMark :: reserved "if" :: (emptiness name isString ++
        sign "\x7b" :: reserved "return" :: word "nil" :: semicolonMark :: sign "\x7d" ::
          semicolonMark :: reserved "return" ::
            (us ++ semicolonMark :: sign "\x7d" :: sign "(" :: sign ")" :: tail)))
      have hphrase := Derives.unlessEmpty hvalue (hderives' _)
      simpa using hphrase

/-! Documents -/

theorem spelled_segment {s : Segment} (h : ∀ o ∈ s.occurrences, isHoleName o.hole = true) :
    Spelled .operand (source (segment s)) (segment s) :=
  match s with
  | .literal s => spelled_quoted s
  | .variable hole => spelled_read (h (.value hole) (by simp [Segment.occurrences]))
  | .call hole args =>
    spelled_callString (spelled_read (h (.call hole args) (by simp [Segment.occurrences]))).sum args

theorem spelled_segments {list : Segments}
    (h : ∀ o ∈ Segments.occurrences list, isHoleName o.hole = true) :
    Spelled .sum (source (segments list)) (segments list) := by
  have hseg : ∀ s ∈ list, Spelled .operand (source (segment s)) (segment s) := fun s hs =>
    spelled_segment fun o ho => h o (List.mem_flatMap.mpr ⟨s, hs, ho⟩)
  have hfold : ∀ (rest : Segments) (first : Expr), Spelled .sum (source first) first →
      (∀ s ∈ rest, Spelled .operand (source (segment s)) (segment s)) →
      Spelled .sum (source ((rest.map segment).foldl .add first))
        ((rest.map segment).foldl .add first) := by
    intro rest
    induction rest with
    | nil => exact fun _ hfirst _ => hfirst
    | cons s rest ih =>
      intro first hfirst hrest
      exact ih _ (spelled_add hfirst (hrest s List.mem_cons_self))
        fun t ht => hrest t (List.mem_cons_of_mem s ht)
  cases list with
  | nil => exact (spelled_quoted []).sum
  | cons first rest =>
    exact hfold rest (segment first) (hseg first List.mem_cons_self).sum
      fun t ht => hseg t (List.mem_cons_of_mem first ht)

theorem spelled_attrs {list : List Attr}
    (h : ∀ o ∈ list.flatMap Attr.occurrences, isHoleName o.hole = true) :
    Spelled .operand (source (attrs list)) (attrs list) := by
  unfold attrs
  split
  · exact spelled_nil
  · refine spelled_attributes fun e he => ?_
    obtain ⟨a, ha, rfl⟩ := List.mem_map.mp he
    exact spelled_item a.ns a.key
      (spelled_segments fun o ho => h o (List.mem_flatMap.mpr ⟨a, ha, ho⟩))

theorem spelled_literalAttrs (list : List Markup.Attribute) :
    Spelled .operand (source (literalAttrs list)) (literalAttrs list) := by
  unfold literalAttrs
  split
  · exact spelled_nil
  · refine spelled_attributes fun e he => ?_
    obtain ⟨a, -, rfl⟩ := List.mem_map.mp he
    exact spelled_item a.ns a.key (spelled_quoted a.value).sum

theorem spelled_content (symbols : Symbols) {hole : Text} (h : isHoleName hole = true)
    (args : List Text) :
    Spelled .operand (source (content symbols hole args).1) (content symbols hole args).1 := by
  have hread := (spelled_read h).sum
  unfold content
  split
  · exact spelled_cloneAll hread
  · exact spelled_cloneAll (spelled_callFragment hread args).sum
  · exact spelled_callString hread args
  · exact spelled_read h

theorem spelled_asNodes {e : Expr} (h : Spelled .operand (source e) e) (isString : Bool) :
    Spelled .operand (source (asNodes e isString)) (asNodes e isString) := by
  cases isString with
  | true => exact spelled_text h.sum
  | false => exact h

theorem spelled_siblings {es : List Expr} (h : ∀ e ∈ es, Spelled .operand (source e) e) :
    Spelled .operand (source (siblings es)) (siblings es) := by
  match es with
  | [] => exact spelled_nil
  | [e] => exact h e List.mem_cons_self
  | e :: e' :: es =>
    exact spelled_concat (h e List.mem_cons_self).sum
      fun c hc => (h c (List.mem_cons_of_mem e hc)).sum

mutual

theorem spelled_ofTree (symbols : Symbols) (t : Tree)
    (h : ∀ o ∈ t.occurrences, isHoleName o.hole = true) :
    Spelled .operand (source (ofTree symbols t)) (ofTree symbols t) := by
  cases t with
  | data list => exact spelled_text (spelled_segments h)
  | comment data => exact spelled_comment data
  | doctype name list => exact spelled_doctype name (spelled_literalAttrs list).sum
  | element ns tag list strip children =>
    simp only [Tree.occurrences, List.forall_mem_append] at h
    have hattrs := (spelled_attrs h.1).sum
    have hinner := spelled_ofTrees symbols children h.2
    cases strip with
    | none => exact spelled_element ns tag hattrs fun e he => (hinner e he).sum
    | always => exact spelled_siblings hinner
    | ifEmpty =>
      have hbound := (spelled_bound .children).sum
      exact spelled_unlessEmpty .children false (spelled_siblings hinner).sum
        (spelled_element ns tag hattrs (List.forall_mem_singleton.mpr hbound)).sum
  | hole ns tag list strip name args replaced =>
    simp only [Tree.occurrences, List.forall_mem_append] at h
    have hattrs := (spelled_attrs h.1).sum
    have hvalue := spelled_content symbols (h.2 _ List.mem_cons_self) args
    cases strip with
    | none =>
      exact spelled_element ns tag hattrs
        (List.forall_mem_singleton.mpr (spelled_asNodes hvalue _).sum)
    | always => exact spelled_asNodes hvalue _
    | ifEmpty =>
      have hbound := (spelled_asNodes (spelled_bound .value) (content symbols name args).2).sum
      exact spelled_unlessEmpty .value _ hvalue.sum
        (spelled_element ns tag hattrs (List.forall_mem_singleton.mpr hbound)).sum

theorem spelled_ofTrees (symbols : Symbols) (list : List Tree)
    (h : ∀ o ∈ Tree.occurrencesIn list, isHoleName o.hole = true) :
    ∀ e ∈ ofTrees symbols list, Spelled .operand (source e) e := by
  cases list with
  | nil => exact fun e he => absurd he List.not_mem_nil
  | cons t rest =>
    simp only [Tree.occurrencesIn, List.forall_mem_append] at h
    simp only [ofTrees, List.forall_mem_cons]
    exact ⟨spelled_ofTree symbols t h.1, spelled_ofTrees symbols rest h.2⟩

end

theorem parses_source_iff (symbols : Symbols) {tree : List Tree}
    (h : ∀ o ∈ Tree.occurrencesIn tree, isHoleName o.hole = true) (e : Expr) :
    Parses (source (ofDocument symbols tree)) e ↔ e = ofDocument symbols tree := by
  have hparses := (spelled_siblings (spelled_ofTrees symbols tree h)).sum.parses
  constructor
  · intro he
    exact he.unique hparses
  · rintro rfl
    exact hparses

end Stencil.Expr
