import Mathlib.Data.List.Forall2
import Mathlib.Tactic.Common

/-! Python's `%` on texts: the scan of a format into pieces, and the text the
pieces make of the values given with it. -/

namespace PercentFormat

abbrev CodePoint := Fin 0x110000

abbrev Text := List CodePoint

def isChar (c : CodePoint) (k : Char) : Bool := c.val == k.toNat

def isOneOf (c : CodePoint) (ks : List Char) : Bool := ks.any (isChar c)

def digit (c : CodePoint) : Option Nat :=
  if 0x30 ≤ c.val ∧ c.val ≤ 0x39 then some (c.val - 0x30) else none

def percentSign : CodePoint := ⟨0x25, by decide⟩

def space : CodePoint := ⟨0x20, by decide⟩

structure Flags where
  left : Bool := false
  sign : Bool := false
  blank : Bool := false
  alternate : Bool := false
  zero : Bool := false

def Flags.add (f : Flags) (c : CodePoint) : Option Flags :=
  if isChar c '-' then some { f with left := true }
  else if isChar c '+' then some { f with sign := true }
  else if isChar c ' ' then some { f with blank := true }
  else if isChar c '#' then some { f with alternate := true }
  else if isChar c '0' then some { f with zero := true }
  else none

/-- A width or a precision. A starred one is the next of the values. -/
inductive Amount where
  | absent
  | fixed (n : Nat)
  | star

/-- What stands between `%` and the conversion. -/
structure Directive where
  key : Option Text := none
  flags : Flags := {}
  width : Amount := .absent
  precision : Amount := .absent

inductive Conversion where
  | str
  | repr
  | ascii
  | char
  | number (kind : CodePoint)
  deriving DecidableEq

inductive Piece where
  | literal (c : CodePoint)
  | percent (d : Directive)
  | value (d : Directive) (conversion : Conversion)

def maxWidth : Nat := 9223372036854775807

def maxPrecision : Nat := 2147483647

/-- How far into a directive the scan is. -/
inductive Place where
  | start
  | key (depth : Nat)
  | flags
  | width (read : Nat)
  | widthStar
  | dot
  | precision (read : Nat)
  | precisionStar
  | modifier

inductive Stage where
  | text
  | inside (place : Place) (d : Directive)

namespace Directive

def atConversion (d : Directive) (c : CodePoint) : Option (Stage × Option Piece) :=
  if isChar c '%' then some (.text, some (.percent d))
  else if isChar c 's' then some (.text, some (.value d .str))
  else if isChar c 'r' then some (.text, some (.value d .repr))
  else if isChar c 'a' then some (.text, some (.value d .ascii))
  else if isChar c 'c' then some (.text, some (.value d .char))
  else if isOneOf c ['d', 'i', 'u', 'o', 'x', 'X', 'e', 'E', 'f', 'F', 'g', 'G'] then
    some (.text, some (.value d (.number c)))
  else none

def atModifier (d : Directive) (c : CodePoint) : Option (Stage × Option Piece) :=
  if isOneOf c ['h', 'l', 'L'] then some (.inside .modifier d, none) else d.atConversion c

def atPrecision (d : Directive) (c : CodePoint) : Option (Stage × Option Piece) :=
  if isChar c '.' then some (.inside .dot { d with precision := .fixed 0 }, none) else d.atModifier c

def atWidth (d : Directive) (c : CodePoint) : Option (Stage × Option Piece) :=
  if isChar c '*' then some (.inside .widthStar { d with width := .star }, none)
  else match digit c with
    | some n => some (.inside (.width n) d, none)
    | none => d.atPrecision c

def atFlags (d : Directive) (c : CodePoint) : Option (Stage × Option Piece) :=
  match d.flags.add c with
  | some f => some (.inside .flags { d with flags := f }, none)
  | none => d.atWidth c

def atStart (d : Directive) (c : CodePoint) : Option (Stage × Option Piece) :=
  if isChar c '(' then some (.inside (.key 0) { d with key := some [] }, none) else d.atFlags c

/-- The parentheses within a key are balanced. -/
def inKey (d : Directive) (depth : Nat) (c : CodePoint) : Option (Stage × Option Piece) :=
  let keep (depth : Nat) := some (.inside (.key depth) { d with key := d.key.map (· ++ [c]) }, none)
  if isChar c '(' then keep (depth + 1)
  else if isChar c ')' then
    if depth = 0 then some (.inside .flags d, none) else keep (depth - 1)
  else keep depth

def inWidth (d : Directive) (read : Nat) (c : CodePoint) : Option (Stage × Option Piece) :=
  match digit c with
  | some n => if read * 10 + n ≤ maxWidth then some (.inside (.width (read * 10 + n)) d, none) else none
  | none => { d with width := .fixed read }.atPrecision c

def atDot (d : Directive) (c : CodePoint) : Option (Stage × Option Piece) :=
  if isChar c '*' then some (.inside .precisionStar { d with precision := .star }, none)
  else match digit c with
    | some n => some (.inside (.precision n) d, none)
    | none => d.atModifier c

def inPrecision (d : Directive) (read : Nat) (c : CodePoint) : Option (Stage × Option Piece) :=
  match digit c with
  | some n => if read * 10 + n ≤ maxPrecision then some (.inside (.precision (read * 10 + n)) d, none) else none
  | none => { d with precision := .fixed read }.atModifier c

def advance (d : Directive) (c : CodePoint) : Place → Option (Stage × Option Piece)
  | .start => d.atStart c
  | .key depth => d.inKey depth c
  | .flags => d.atFlags c
  | .width read => d.inWidth read c
  | .widthStar => d.atPrecision c
  | .dot => d.atDot c
  | .precision read => d.inPrecision read c
  | .precisionStar => d.atModifier c
  | .modifier => d.atConversion c

end Directive

def Stage.advance (c : CodePoint) : Stage → Option (Stage × Option Piece)
  | .text => if isChar c '%' then some (.inside .start {}, none) else some (.text, some (.literal c))
  | .inside place d => d.advance c place

/-- A format that ends inside a directive is refused. -/
def scan : Stage → Text → Option (List Piece)
  | .text, [] => some []
  | .inside _ _, [] => none
  | stage, c :: cs => (stage.advance c).bind (fun s => (scan s.1 cs).map (s.2.toList ++ ·))

def parse (format : Text) : Option (List Piece) := scan .text format

/-- A directive with its stars replaced by numbers. -/
structure Spec where
  flags : Flags
  width : Option Nat
  precision : Option Nat

/-- What formatting asks of a value, with `none` for an exception. -/
class Formattable (V : Type) where
  str : V → Option Text
  repr : V → Option Text
  ascii : V → Option Text
  int : V → Option Int
  char : V → Option CodePoint
  number : CodePoint → Spec → V → Option Text
  item : V → Text → Option V

section Rendering

variable {V : Type} [Formattable V]

def Spec.padded (s : Spec) (t : Text) : Text :=
  let fill := List.replicate (s.width.getD 0 - t.length) space
  if s.flags.left then t ++ fill else fill ++ t

def Spec.cut (s : Spec) (t : Text) : Text :=
  match s.precision with
  | some n => t.take n
  | none => t

def Conversion.text (s : Spec) (v : V) : Conversion → Option Text
  | .str => (Formattable.str v).map (fun t => s.padded (s.cut t))
  | .repr => (Formattable.repr v).map (fun t => s.padded (s.cut t))
  | .ascii => (Formattable.ascii v).map (fun t => s.padded (s.cut t))
  | .char => (Formattable.char v).map (fun c => s.padded [c])
  | .number kind => Formattable.number kind s v

/-- A negative width adjusts to the left. -/
def starWidth (f : Flags) (v : V) : Option (Flags × Option Nat) :=
  (Formattable.int v).bind (fun n =>
    if n.natAbs ≤ maxWidth then some (if n < 0 then { f with left := true } else f, some n.natAbs) else none)

/-- A negative precision is zero. -/
def starPrecision (v : V) : Option (Option Nat) :=
  (Formattable.int v).bind (fun n =>
    if -(maxPrecision + 1) ≤ n ∧ n ≤ maxPrecision then some (some n.toNat) else none)

def Amount.read {α : Type} (absent : α) (fixed : Nat → α) (star : V → Option α) :
    Amount → List V → Option (α × List V)
  | .absent, values => some (absent, values)
  | .fixed n, values => some (fixed n, values)
  | .star, [] => none
  | .star, v :: values => (star v).map (fun a => (a, values))

def Directive.spec (d : Directive) (values : List V) : Option (Spec × List V) :=
  (d.width.read (d.flags, none) (fun n => (d.flags, some n)) (starWidth d.flags) values).bind (fun w =>
    (d.precision.read none some starPrecision w.2).map (fun p => (⟨w.1.1, w.1.2, p.1⟩, p.2)))

def Conversion.next (conversion : Conversion) (s : Spec) : List V → Option (Text × List V)
  | [] => none
  | v :: values => (conversion.text s v).map (fun t => (t, values))

def Piece.key : Piece → Option Text
  | .literal _ => none
  | .percent d => d.key
  | .value d _ => d.key

/-- The piece's text, its key apart, and the values after those it takes. -/
def Piece.fill : Piece → List V → Option (Text × List V)
  | .literal c, values => some ([c], values)
  | .percent d, values => (d.spec values).map (fun s => ([percentSign], s.2))
  | .value d conversion, values => (d.spec values).bind (fun s => conversion.next s.1 s.2)

/-- A key takes the place of the values that are left. -/
def Piece.render (mapping : Option V) (p : Piece) (values : List V) : Option (Text × List V) :=
  match p.key with
  | none => p.fill values
  | some key => mapping.bind (fun m => (Formattable.item m key).bind (fun v => p.fill [v]))

def renderAll (mapping : Option V) : List Piece → List V → Option (Text × List V)
  | [], values => some ([], values)
  | p :: ps, values => (p.render mapping values).bind (fun t =>
      (renderAll mapping ps t.2).map (fun ts => (t.1 ++ ts.1, ts.2)))

inductive Args (V : Type) where
  | tuple (values : List V)
  | mapping (m : V)

/-- `format % args` -/
def format (fmt : Text) (args : Args V) : Option Text :=
  (parse fmt).bind (fun ps => match args with
    | .tuple values => (renderAll none ps values).bind (fun t => if t.2 = [] then some t.1 else none)
    | .mapping m => (renderAll (some m) ps [m]).map Prod.fst)

end Rendering

/-- A step that takes the first `n` of the values, whatever comes after them. -/
structure Consumes {V α : Type} (f : List V → Option (α × List V)) (n : Nat) : Prop where
  le_length : ∀ {values x}, f values = some x → n ≤ values.length
  append : ∀ {used} (rest : List V), used.length = n → f (used ++ rest) = (f used).map (fun x => (x.1, rest))

namespace Consumes

variable {V α β : Type} {f : List V → Option (α × List V)} {n m : Nat}

theorem pure (a : α) : Consumes (fun values : List V => some (a, values)) 0 where
  le_length _ := Nat.zero_le _
  append rest h := by
    obtain rfl := List.length_eq_zero_iff.1 h
    rfl

theorem pop (g : V → Option α) (hf : ∀ v values, f (v :: values) = (g v).map (fun a => (a, values)))
    (hnil : f [] = none) : Consumes f 1 where
  le_length {values x} h := by
    cases values with
    | nil => simp [hnil] at h
    | cons v values => simp
  append {used} rest h := by
    obtain ⟨v, rfl⟩ := List.length_eq_one_iff.1 h
    simp [hf, Function.comp_def]

/-- The rest of a longer list is what the step leaves. -/
theorem drop (hf : Consumes f n) {values : List V} (hn : n ≤ values.length) :
    f values = (f (values.take n)).map (fun x => (x.1, values.drop n)) := by
  have hlen : (values.take n).length = n := List.length_take_of_le hn
  conv_lhs => rw [← List.take_append_drop n values]
  exact hf.append _ hlen

theorem rest_eq (hf : Consumes f n) {values : List V} {x : α × List V} (h : f values = some x) : x.2 = values.drop n := by
  rw [hf.drop (hf.le_length h)] at h
  obtain ⟨_, _, rfl⟩ := Option.map_eq_some_iff.1 h
  rfl

theorem bind {g : α → List V → Option (β × List V)} (hf : Consumes f n) (hg : ∀ a, Consumes (g a) m) :
    Consumes (fun values => (f values).bind (fun x => g x.1 x.2)) (n + m) where
  le_length {values y} h := by
    obtain ⟨x, hx, hy⟩ := Option.bind_eq_some_iff.1 h
    have hn := hf.le_length hx
    have hm := (hg x.1).le_length hy
    rw [hf.rest_eq hx, List.length_drop] at hm
    omega
  append {used} rest h := by
    have hn : n ≤ used.length := by omega
    have hm : (used.drop n).length = m := by rw [List.length_drop]; omega
    have hfirst : f (used ++ rest) = (f (used.take n)).map (fun x => (x.1, used.drop n ++ rest)) := by
      rw [hf.drop (by rw [List.length_append]; omega), List.take_append_of_le_length hn, List.drop_append_of_le_length hn]
    simp only [hfirst, hf.drop hn]
    cases f (used.take n) with
    | none => rfl
    | some x => exact (hg x.1).append rest hm

theorem map (g : α → β) (hf : Consumes f n) : Consumes (fun values => (f values).map (fun x => (g x.1, x.2))) n := by
  simp only [Option.map_eq_bind]
  exact hf.bind (fun a => pure (g a))

end Consumes

def Amount.arity : Amount → Nat
  | .absent => 0
  | .fixed _ => 0
  | .star => 1

def Directive.stars (d : Directive) : Nat := d.width.arity + d.precision.arity

/-- How many values a piece takes. -/
def Piece.arity : Piece → Nat
  | .literal _ => 0
  | .percent d => d.stars
  | .value d _ => d.stars + 1

def arity : List Piece → Nat
  | [] => 0
  | p :: ps => p.arity + arity ps

def Keyless (ps : List Piece) : Prop := ∀ p ∈ ps, p.key = none

/-- What a directive asks of a value: a number in place of a star, or the text its
conversion makes of it. -/
inductive Query where
  | star
  | shown (conversion : Conversion)
  deriving DecidableEq

def Amount.queries : Amount → List Query
  | .absent => []
  | .fixed _ => []
  | .star => [.star]

def Directive.queries (d : Directive) : List Query := d.width.queries ++ d.precision.queries

def Piece.queries : Piece → List Query
  | .literal _ => []
  | .percent d => d.queries
  | .value d conversion => d.queries ++ [.shown conversion]

/-- What a format asks of its values, one query for each of them. -/
def queries : List Piece → List Query
  | [] => []
  | p :: ps => p.queries ++ queries ps

theorem Amount.length_queries (a : Amount) : a.queries.length = a.arity := by
  cases a <;> rfl

theorem Directive.length_queries (d : Directive) : d.queries.length = d.stars := by
  rw [queries, List.length_append, Amount.length_queries, Amount.length_queries, stars]

theorem Piece.length_queries (p : Piece) : p.queries.length = p.arity := by
  cases p with
  | literal c => rfl
  | percent d => exact d.length_queries
  | value d conversion => rw [queries, List.length_append, d.length_queries, arity, List.length_singleton]

theorem length_queries (ps : List Piece) : (queries ps).length = arity ps := by
  induction ps with
  | nil => rfl
  | cons p ps ih => rw [queries, List.length_append, p.length_queries, ih, arity]

theorem arity_cons_split {V : Type} {p : Piece} {ps : List Piece} {values : List V}
    (hlen : arity (p :: ps) = values.length) : p.arity ≤ values.length ∧ arity ps = (values.drop p.arity).length := by
  have hsum : arity (p :: ps) = p.arity + arity ps := rfl
  rw [List.length_drop]
  omega

theorem consumes_read {V α : Type} (absent : α) (fixed : Nat → α) (star : V → Option α) (a : Amount) :
    Consumes (a.read absent fixed star) a.arity := by
  cases a with
  | absent => exact Consumes.pure absent
  | fixed n => exact Consumes.pure (fixed n)
  | star => exact Consumes.pop star (fun v values => rfl) rfl

section Values

variable {V : Type} [Formattable V] {p : Piece} {ps : List Piece}

theorem consumes_spec (d : Directive) : Consumes (fun values : List V => d.spec values) d.stars := by
  have hprecision : ∀ w : Flags × Option Nat, Consumes (fun values : List V =>
      (d.precision.read none some starPrecision values).map (fun p => (Spec.mk w.1 w.2 p.1, p.2))) d.precision.arity :=
    fun w => (consumes_read none some starPrecision d.precision).map (fun p => Spec.mk w.1 w.2 p)
  exact (consumes_read _ _ (starWidth d.flags) d.width).bind hprecision

theorem consumes_fill (p : Piece) : Consumes (fun values : List V => p.fill values) p.arity := by
  cases p with
  | literal c => exact Consumes.pure [c]
  | percent d => exact (consumes_spec d).map (fun _ => [percentSign])
  | value d conversion =>
    have hnext : ∀ s, Consumes (fun values : List V => conversion.next s values) 1 :=
      fun s => Consumes.pop (fun v => conversion.text s v) (fun v values => rfl) rfl
    exact (consumes_spec d).bind hnext

theorem render_of_keyless (mapping : Option V) (hp : p.key = none) : p.render mapping = p.fill := by
  funext values
  simp only [Piece.render, hp]

theorem consumes_renderAll (mapping : Option V) (hps : Keyless ps) : Consumes (renderAll mapping ps) (arity ps) := by
  induction ps with
  | nil => exact Consumes.pure []
  | cons p ps ih =>
    obtain ⟨hp, hrest⟩ := List.forall_mem_cons.1 hps
    have hfill := consumes_fill (V := V) p
    rw [← render_of_keyless mapping hp] at hfill
    exact hfill.bind (fun t => (ih hrest).map (fun ts => t ++ ts))

/-- Without a mapping no piece may have a key. -/
theorem keyless_of_renderAll {values : List V} {x : Text × List V} (h : renderAll none ps values = some x) :
    Keyless ps := by
  induction ps generalizing values x with
  | nil => exact List.forall_mem_nil _
  | cons p ps ih =>
    obtain ⟨t, ht, hrest⟩ := Option.bind_eq_some_iff.1 h
    obtain ⟨ts, hts, _⟩ := Option.map_eq_some_iff.1 hrest
    have hp : p.key = none := by
      cases hkey : p.key with
      | none => rfl
      | some key => simp [Piece.render, hkey] at ht
    exact List.forall_mem_cons.2 ⟨hp, ih hts⟩

def Piece.text (p : Piece) (values : List V) : Option Text := (p.fill values).map Prod.fst

/-- The text of each piece, from the values it takes. -/
def texts : List Piece → List V → Option (List Text)
  | [], _ => some []
  | p :: ps, values => (p.text (values.take p.arity)).bind (fun t =>
      (texts ps (values.drop p.arity)).map (fun ts => t :: ts))

theorem renderAll_eq_texts (mapping : Option V) {values : List V} (hps : Keyless ps) (hlen : arity ps = values.length) :
    renderAll mapping ps values = (texts ps values).map (fun ts => (ts.flatten, [])) := by
  induction ps generalizing values with
  | nil =>
    obtain rfl := List.length_eq_zero_iff.1 hlen.symm
    rfl
  | cons p ps ih =>
    obtain ⟨hp, hrest⟩ := List.forall_mem_cons.1 hps
    obtain ⟨hle, hdrop⟩ := arity_cons_split hlen
    simp only [renderAll, texts, Piece.text, render_of_keyless mapping hp, (consumes_fill p).drop hle, Option.bind_map,
      Function.comp_def, ih hrest hdrop, Option.map_bind, Option.map_map, List.flatten_cons]

def Args.values : Args V → List V
  | .tuple values => values
  | .mapping m => [m]

/-- Without keys a mapping is one value among others. -/
theorem format_of_keyless {fmt : Text} (args : Args V) (hparse : parse fmt = some ps) (hps : Keyless ps)
    (hlen : arity ps = args.values.length) : format fmt args = (texts ps args.values).map List.flatten := by
  cases args with
  | tuple values =>
    have hrender := renderAll_eq_texts none hps hlen
    rw [Args.values] at hrender
    cases htexts : texts ps values <;> simp [format, hparse, hrender, Args.values, htexts]
  | mapping m =>
    have hrender := renderAll_eq_texts (some m) hps hlen
    rw [Args.values] at hrender
    simp [format, hparse, hrender, Args.values, Function.comp_def]

/-- A tuple has to have a value for every directive and no more, and fits no keys. -/
theorem format_tuple_eq_some_iff {fmt t : Text} {values : List V} :
    format fmt (.tuple values) = some t ↔
      ∃ ps, parse fmt = some ps ∧ Keyless ps ∧ arity ps = values.length ∧
        (texts ps values).map List.flatten = some t := by
  constructor
  · intro h
    obtain ⟨ps, hps, hrender⟩ := Option.bind_eq_some_iff.1 h
    obtain ⟨x, hx, hend⟩ := Option.bind_eq_some_iff.1 hrender
    split at hend
    next hnil =>
      have hkeyless := keyless_of_renderAll hx
      have hall := consumes_renderAll (none : Option V) hkeyless
      have hge : values.length ≤ arity ps := List.drop_eq_nil_iff.1 ((hall.rest_eq hx).symm.trans hnil)
      have hlen : arity ps = values.length := Nat.le_antisymm (hall.le_length hx) hge
      have htexts := format_of_keyless (.tuple values) hps hkeyless hlen
      exact ⟨ps, hps, hkeyless, hlen, htexts.symm.trans h⟩
    next => cases hend
  · rintro ⟨ps, hps, hkeyless, hlen, htexts⟩
    have hformat := format_of_keyless (.tuple values) hps hkeyless hlen
    exact hformat.trans htexts

/-- Two values answer a query alike. -/
def Query.Alike : Query → V → V → Prop
  | .star, v, v' => Formattable.int v = Formattable.int v'
  | .shown conversion, v, v' => ∀ s, conversion.text s v = conversion.text s v'

theorem Query.alike_refl (q : Query) (v : V) : q.Alike v v := by
  cases q with
  | star => rfl
  | shown conversion => exact fun _ => rfl

/-- Pairs of values that answer the queries alike, a pair for each query. -/
def AllAlike : List Query → List (V × V) → Prop := List.Forall₂ (fun q x => q.Alike x.1 x.2)

theorem AllAlike.split {qs qs' : List Query} {xs : List (V × V)} (h : AllAlike (qs ++ qs') xs) :
    ∃ used rest, xs = used ++ rest ∧ AllAlike qs used ∧ AllAlike qs' rest := by
  have htake := List.forall₂_take qs.length h
  have hdrop := List.forall₂_drop qs.length h
  rw [List.take_left] at htake
  rw [List.drop_left] at hdrop
  exact ⟨_, _, (List.take_append_drop qs.length xs).symm, htake, hdrop⟩

/-- A step that gets alike values does the same, and leaves what comes after them. -/
def SameStep {α : Type} (f : List V → Option (α × List V)) (xs : List (V × V)) : Prop :=
  ∃ o : Option α, ∀ rest, f (xs.map Prod.fst ++ rest) = o.map (fun a => (a, rest)) ∧
    f (xs.map Prod.snd ++ rest) = o.map (fun a => (a, rest))

theorem read_alike {α : Type} (absent : α) (fixed : Nat → α) {star : V → Option α} {a : Amount} {xs : List (V × V)}
    (hstar : ∀ v v', Formattable.int v = Formattable.int v' → star v = star v') (h : AllAlike a.queries xs) :
    SameStep (a.read absent fixed star) xs := by
  cases a with
  | absent =>
    cases h
    exact ⟨some absent, fun rest => ⟨rfl, rfl⟩⟩
  | fixed n =>
    cases h
    exact ⟨some (fixed n), fun rest => ⟨rfl, rfl⟩⟩
  | star =>
    cases h with
    | @cons q x qs xs hx hxs =>
      cases hxs
      refine ⟨star x.1, fun rest => ⟨rfl, ?_⟩⟩
      rw [hstar _ _ hx]
      rfl

theorem spec_alike {d : Directive} {xs : List (V × V)} (h : AllAlike d.queries xs) :
    SameStep (fun values => d.spec values) xs := by
  obtain ⟨xs, ys, rfl, hxs, hys⟩ := h.split
  have hwidthStar : ∀ v v' : V, Formattable.int v = Formattable.int v' → starWidth d.flags v = starWidth d.flags v' :=
    fun v v' hv => by rw [starWidth, starWidth, hv]
  have hprecisionStar : ∀ v v' : V, Formattable.int v = Formattable.int v' → starPrecision v = starPrecision v' :=
    fun v v' hv => by rw [starPrecision, starPrecision, hv]
  obtain ⟨width, hwidth⟩ := read_alike (d.flags, none) (fun n => (d.flags, some n)) hwidthStar hxs
  obtain ⟨precision, hprecision⟩ := read_alike none some hprecisionStar hys
  refine ⟨width.bind (fun w => precision.map (fun p => ⟨w.1, w.2, p⟩)), fun rest => ?_⟩
  simp only [Directive.spec, List.map_append, List.append_assoc, (hwidth _).1, (hwidth _).2]
  cases width with
  | none => exact ⟨rfl, rfl⟩
  | some w =>
    simp only [Option.map_some, Option.bind_some, (hprecision _).1, (hprecision _).2]
    cases precision <;> exact ⟨rfl, rfl⟩

theorem Piece.fill_alike {xs : List (V × V)} (h : AllAlike p.queries xs) : SameStep p.fill xs := by
  cases p with
  | literal c =>
    cases h
    exact ⟨some [c], fun rest => ⟨rfl, rfl⟩⟩
  | percent d =>
    obtain ⟨spec, hspec⟩ := spec_alike h
    refine ⟨spec.map (fun _ => [percentSign]), fun rest => ?_⟩
    simp only [fill, (hspec rest).1, (hspec rest).2]
    cases spec <;> exact ⟨rfl, rfl⟩
  | value d conversion =>
    obtain ⟨xs, ys, rfl, hxs, hys⟩ := h.split
    obtain ⟨spec, hspec⟩ := spec_alike hxs
    cases hys with
    | @cons q x qs ys hx hys =>
      cases hys
      refine ⟨spec.bind (fun s => conversion.text s x.1), fun rest => ?_⟩
      simp only [fill, List.map_append, List.append_assoc, (hspec _).1, (hspec _).2]
      cases spec with
      | none => exact ⟨rfl, rfl⟩
      | some s =>
        refine ⟨rfl, ?_⟩
        simp only [Option.map_some, Option.bind_some, hx s]
        rfl

/-- A format whose queries are answered alike makes the same texts. -/
theorem texts_of_alike {xs : List (V × V)} (h : AllAlike (queries ps) xs) :
    texts ps (xs.map Prod.fst) = texts ps (xs.map Prod.snd) := by
  induction ps generalizing xs with
  | nil => rfl
  | cons p ps ih =>
    obtain ⟨used, rest, rfl, hused, hrest⟩ := h.split
    have hlen : used.length = p.arity := hused.length_eq.symm.trans p.length_queries
    obtain ⟨o, ho⟩ := p.fill_alike hused
    have htext : p.text (used.map Prod.fst) = p.text (used.map Prod.snd) := by
      have hnil := ho []
      rw [List.append_nil, List.append_nil] at hnil
      rw [Piece.text, Piece.text, hnil.1, hnil.2]
    have hfst : (used.map Prod.fst).length = p.arity := (List.length_map ..).trans hlen
    have hsnd : (used.map Prod.snd).length = p.arity := (List.length_map ..).trans hlen
    simp only [texts, List.map_append, List.take_left' hfst, List.drop_left' hfst, List.take_left' hsnd,
      List.drop_left' hsnd, htext, ih hrest]

def Query.Answered : Query → V → Prop
  | .star, v => (Formattable.int v).isSome
  | .shown conversion, v => ∃ s, (conversion.text s v).isSome

/-- A step that succeeds has got an answer to each query from the values it took. -/
def Answers {α : Type} (f : List V → Option (α × List V)) (qs : List Query) : Prop :=
  ∀ values x, f values = some x → ∃ used, values = used ++ x.2 ∧ List.Forall₂ Query.Answered qs used

theorem Answers.bind {α β : Type} {f : List V → Option (α × List V)} {g : α → List V → Option (β × List V)}
    {qs qs' : List Query} (hf : Answers f qs) (hg : ∀ a, Answers (g a) qs') :
    Answers (fun values => (f values).bind (fun x => g x.1 x.2)) (qs ++ qs') := by
  intro values y h
  obtain ⟨x, hx, hy⟩ := Option.bind_eq_some_iff.1 h
  obtain ⟨used, rfl, hused⟩ := hf values x hx
  obtain ⟨used', hrest, hused'⟩ := hg x.1 x.2 y hy
  exact ⟨used ++ used', by rw [List.append_assoc, hrest], List.rel_append hused hused'⟩

theorem Answers.map {α β : Type} {f : List V → Option (α × List V)} {qs : List Query} (g : α → β) (hf : Answers f qs) :
    Answers (fun values => (f values).map (fun x => (g x.1, x.2))) qs := by
  intro values y h
  obtain ⟨x, hx, rfl⟩ := Option.map_eq_some_iff.1 h
  exact hf values x hx

theorem answers_read {α : Type} {absent : α} {fixed : Nat → α} {star : V → Option α}
    (hstar : ∀ v a, star v = some a → (Formattable.int v).isSome) (a : Amount) :
    Answers (a.read absent fixed star) a.queries := by
  intro values x h
  cases a with
  | absent =>
    cases h
    exact ⟨[], rfl, .nil⟩
  | fixed n =>
    cases h
    exact ⟨[], rfl, .nil⟩
  | star =>
    cases values with
    | nil => cases h
    | cons v values =>
      obtain ⟨a, ha, rfl⟩ := Option.map_eq_some_iff.1 h
      exact ⟨[v], rfl, .cons (hstar v a ha) .nil⟩

theorem answers_spec (d : Directive) : Answers (fun values : List V => d.spec values) d.queries := by
  have hint : ∀ {α : Type} {g : Int → Option α} (v : V) (a : α), (Formattable.int v).bind g = some a →
      (Formattable.int v).isSome := by
    intro α g v a h
    obtain ⟨n, hn, -⟩ := Option.bind_eq_some_iff.1 h
    exact Option.isSome_of_eq_some hn
  have hprecision : ∀ w : Flags × Option Nat, Answers (fun values : List V =>
      (d.precision.read none some starPrecision values).map (fun p => (Spec.mk w.1 w.2 p.1, p.2))) d.precision.queries :=
    fun w => (answers_read hint d.precision).map (fun p => Spec.mk w.1 w.2 p)
  exact (answers_read hint d.width).bind hprecision

theorem Piece.answers_fill (p : Piece) : Answers (fun values : List V => p.fill values) p.queries := by
  cases p with
  | literal c =>
    intro values x h
    cases h
    exact ⟨[], rfl, .nil⟩
  | percent d => exact (answers_spec d).map (fun _ => [percentSign])
  | value d conversion =>
    refine (answers_spec d).bind (fun s values x h => ?_)
    cases values with
    | nil => cases h
    | cons v values =>
      obtain ⟨t, ht, rfl⟩ := Option.map_eq_some_iff.1 h
      exact ⟨[v], rfl, .cons ⟨s, Option.isSome_of_eq_some ht⟩ .nil⟩

theorem answers_renderAll (mapping : Option V) (hps : Keyless ps) : Answers (renderAll mapping ps) (queries ps) := by
  induction ps with
  | nil =>
    intro values x h
    cases h
    exact ⟨[], rfl, .nil⟩
  | cons p ps ih =>
    obtain ⟨hp, hrest⟩ := List.forall_mem_cons.1 hps
    have hfill := p.answers_fill (V := V)
    rw [← render_of_keyless mapping hp] at hfill
    exact hfill.bind (fun t => (ih hrest).map (fun ts => t ++ ts))

/-- A tuple that a format shows answers its queries. -/
theorem answered_of_format {fmt t : Text} {values : List V} (hparse : parse fmt = some ps)
    (h : format fmt (.tuple values) = some t) : List.Forall₂ Query.Answered (queries ps) values := by
  rw [format, hparse, Option.bind_some] at h
  obtain ⟨x, hx, hend⟩ := Option.bind_eq_some_iff.1 h
  split at hend
  · next hnil =>
    obtain ⟨used, hvalues, hused⟩ := answers_renderAll none (keyless_of_renderAll hx) values x hx
    rw [hnil, List.append_nil] at hvalues
    exact hvalues ▸ hused
  · cases hend

end Values

end PercentFormat
