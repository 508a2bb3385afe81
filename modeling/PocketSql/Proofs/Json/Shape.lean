import PocketSql.Proofs.Number.JsonText

/-!
# What the text of a JSON value tells

The text of a JSON value tells its shape: which lists it consists of, the names in them and their
order, and the texts of its atoms. Escapes keep a quoted text apart from what surrounds it, every
other atom ends at a comma or a line break, and an empty list differs from every other list in its
second character.

## Main definitions

* `Shape` — a JSON value in which atoms are known by their texts.
* `Tells` — a text that determines what it was written for, whatever ends it.

## Main results

* `quotedText_append_inj` — a quoted text determines the string and what stands behind it.
* `tells_textAt`, `shape_inj` — the text of a value determines its shape.
-/

namespace PocketSql
namespace Json

/-- A value in which atoms are known by their texts. -/
inductive Shape where
  | atom (text : List Char)
  | array (items : List Shape)
  | object (fields : List (String × Shape))

mutual

/-- The shape of a value. An atom has the same text at every level. -/
def shape : Json → Shape
  | array items => .array (shapes items)
  | object fields => .object (fieldShapes fields)
  | v => .atom (v.textAt 0)

def shapes : List Json → List Shape
  | [] => []
  | v :: items => v.shape :: shapes items

def fieldShapes : List (String × Json) → List (String × Shape)
  | [] => []
  | (name, v) :: fields => (name, v.shape) :: fieldShapes fields

end

@[simp] theorem shapes_eq (items : List Json) : shapes items = items.map shape := by
  induction items with
  | nil => rfl
  | cons v items ih => rw [shapes, ih, List.map_cons]

@[simp] theorem fieldShapes_eq (fields : List (String × Json)) :
    fieldShapes fields = fields.map fun field => (field.1, field.2.shape) := by
  induction fields with
  | nil => rfl
  | cons field fields ih => rw [fieldShapes, ih, List.map_cons]

/-! ## Quoted texts -/

/-- The value of a hexadecimal digit. -/
def hexValue (c : Char) : Nat := if c.isDigit then c.toNat - '0'.toNat else c.toNat - 'a'.toNat + 10

/-- The character of a short escape. -/
def unescaped : Char → Char
  | 'n' => '\n'
  | 'r' => '\r'
  | 't' => '\t'
  | 'b' => '\x08'
  | 'f' => '\x0c'
  | c => c

/-- The first character of a text between quotes, and what stands behind it. -/
def unescape : List Char → Option (Char × List Char)
  | '\\' :: 'u' :: _ :: _ :: a :: b :: s => some (Char.ofNat (16 * hexValue a + hexValue b), s)
  | '\\' :: c :: s => some (unescaped c, s)
  | '"' :: _ => none
  | c :: s => some (c, s)
  | [] => none

theorem unescape_cons {c : Char} (quote : c ≠ '"') (backslash : c ≠ '\\') (s : List Char) :
    unescape (c :: s) = some (c, s) := by
  unfold unescape
  split <;> simp_all

theorem hexValue_digitChar : ∀ n < 16, hexValue (Nat.digitChar n) = n := by decide

theorem unescape_escaped (c : Char) (s : List Char) : unescape (escaped c ++ s) = some (c, s) := by
  unfold escaped
  split
  all_goals try rfl
  next quote backslash _ _ _ _ _ =>
    split
    · next control =>
      have value : 16 * hexValue (Nat.digitChar (c.toNat / 16)) +
          hexValue (Nat.digitChar (c.toNat % 16)) = c.toNat := by
        rw [hexValue_digitChar _ (by omega), hexValue_digitChar _ (by omega)]
        omega
      simp [unescape, value]
    · exact unescape_cons quote backslash s

/-- The closing quote ends the text. -/
theorem flatMap_escaped_inj {a b s t : List Char}
    (h : a.flatMap escaped ++ '"' :: s = b.flatMap escaped ++ '"' :: t) : a = b ∧ s = t := by
  induction a generalizing b with
  | nil =>
    cases b with
    | nil => simpa using h
    | cons c b =>
      have first := congrArg unescape h
      rw [List.flatMap_cons, List.append_assoc, unescape_escaped] at first
      cases first
  | cons c a ih =>
    cases b with
    | nil =>
      have first := congrArg unescape h
      rw [List.flatMap_cons, List.append_assoc, unescape_escaped] at first
      cases first
    | cons d b =>
      have first := congrArg unescape h
      simp only [List.flatMap_cons, List.append_assoc, unescape_escaped] at first
      obtain ⟨rfl, rest⟩ := Prod.mk.inj (Option.some.inj first)
      obtain ⟨rfl, same⟩ := ih rest
      exact ⟨rfl, same⟩

/-- **A quoted text determines the string and what stands behind it.** -/
theorem quotedText_append_inj {a b : String} {s t : List Char}
    (h : quotedText a ++ s = quotedText b ++ t) : a = b ∧ s = t := by
  simp only [quotedText, List.cons_append, List.append_assoc, List.cons.injEq, true_and,
    List.nil_append] at h
  obtain ⟨chars, same⟩ := flatMap_escaped_inj h
  exact ⟨String.toList_inj.1 chars, same⟩

/-! ## Atoms -/

/-- What stands behind a value: nothing, a comma or a line break. -/
def Ends (s : List Char) : Prop := ∀ c, s.head? = some c → c = ',' ∨ c = '\n'

/-- A character that neither ends a value nor opens a quoted text or a list. -/
def inPlain (c : Char) : Bool := c ∉ [',', '\n', '"', '[', '\x7b']

/-- The text of an atom: quoted, or plain up to its end. -/
inductive IsAtom : List Char → Prop where
  | quoted (s : String) : IsAtom (quotedText s)
  | plain {c : Char} {text : List Char} (h : (c :: text).all inPlain = true) : IsAtom (c :: text)

theorem IsAtom.append_inj {a b s t : List Char} (ha : IsAtom a) (hb : IsAtom b) (hs : Ends s)
    (ht : Ends t) (h : a ++ s = b ++ t) : a = b ∧ s = t := by
  have stop {u : List Char} (hu : Ends u) : ∀ c, u.head? = some c → inPlain c = false := by
    intro c hc
    obtain rfl | rfl := hu c hc <;> rfl
  obtain ⟨x⟩ | @⟨c, a, ha⟩ := ha <;> obtain ⟨y⟩ | @⟨d, b, hb⟩ := hb
  · obtain ⟨rfl, same⟩ := quotedText_append_inj h
    exact ⟨rfl, same⟩
  · obtain rfl := (List.cons.inj h).1
    cases hb
  · obtain rfl := (List.cons.inj h).1
    cases ha
  · rw [List.all_eq_true] at ha hb
    have front := congrArg (List.takeWhile inPlain) h
    rw [takeWhile_front ha (stop hs), takeWhile_front hb (stop ht)] at front
    exact ⟨front, List.append_cancel_left (front ▸ h)⟩

theorem inPlain_of_inNumber {c : Char} (h : Decimal.inNumber c = true) : inPlain c = true := by
  by_contra special
  simp only [inPlain, List.mem_cons, List.not_mem_nil, or_false, decide_not, Bool.not_eq_true',
    decide_eq_false_iff_not, not_not] at special
  obtain rfl | rfl | rfl | rfl | rfl := special <;> cases h

theorem isAtom_spelled {s : List Char} {d : Decimal} (h : Decimal.Spells s d) (negative : Bool) :
    IsAtom (if negative then '-' :: s else s) := by
  obtain ⟨⟨c, t, rfl, -⟩, chars, -⟩ := h
  have plain : (c :: t).all inPlain = true :=
    List.all_eq_true.2 fun a ha => inPlain_of_inNumber (chars a ha)
  cases negative with
  | true => exact .plain (by rw [List.all_cons, plain]; rfl)
  | false => exact .plain plain

theorem isAtom_json (x : Number) : IsAtom x.json := by
  cases hx : x.isFinite with
  | true =>
    obtain ⟨negative, s, d, written, spells, -⟩ := Number.spells_json hx
    rw [written]
    exact isAtom_spelled spells negative
  | false =>
    rw [Number.json, hx]
    exact .plain (by decide)

theorem isAtom_digitsOf (n : Nat) : IsAtom (Decimal.digitsOf n) := by
  obtain ⟨c, t, hn⟩ := List.exists_cons_of_ne_nil (Decimal.digitsOf_ne_nil n)
  rw [hn]
  refine .plain (List.all_eq_true.2 fun a ha => ?_)
  apply inPlain_of_inNumber
  apply Decimal.inNumber_of_isDigit
  exact Decimal.isDigit_of_mem_digitsOf (hn ▸ ha)

theorem textAt_natural (level n : Nat) : textAt level (natural n) = Decimal.digitsOf n := by
  simp [textAt, Decimal.digitsOf]

/-- A value that is an atom, and its text. -/
structure Atomic (v : Json) (text : List Char) : Prop where
  isAtom : IsAtom text
  shape_eq : v.shape = .atom text
  textAt_eq : ∀ level, v.textAt level = text

/-- A value is an atom or a list. -/
theorem cases_atomic (v : Json) :
    (∃ text, v.Atomic text) ∨ (∃ items, v = array items) ∨ ∃ fields, v = object fields := by
  cases v with
  | null => exact .inl ⟨_, .plain (by decide), rfl, fun _ => rfl⟩
  | boolean b => cases b <;> exact .inl ⟨_, .plain (by decide), rfl, fun _ => rfl⟩
  | natural n =>
    exact .inl ⟨_, isAtom_digitsOf n, congrArg Shape.atom (textAt_natural 0 n),
      fun level => textAt_natural level n⟩
  | number x => exact .inl ⟨_, isAtom_json x, rfl, fun _ => rfl⟩
  | string s => exact .inl ⟨_, .quoted s, rfl, fun _ => rfl⟩
  | array items => exact .inr (.inl ⟨items, rfl⟩)
  | object fields => exact .inr (.inr ⟨fields, rfl⟩)

theorem sizeOf_snd_lt {field : String × Json} {fields : List (String × Json)}
    (h : field ∈ fields) : sizeOf field.2 < sizeOf fields := by
  have inside := List.sizeOf_lt_of_mem h
  obtain ⟨name, v⟩ := field
  rw [Prod.mk.sizeOf_spec] at inside
  dsimp only
  omega

/-- Induction over values, through the elements and the fields of lists. -/
theorem induction_on {motive : Json → Prop} (atom : ∀ v text, v.Atomic text → motive v)
    (array : ∀ items, (∀ v ∈ items, motive v) → motive (array items))
    (object : ∀ fields, (∀ field ∈ fields, motive field.2) → motive (object fields)) (v : Json) :
    motive v := by
  obtain ⟨text, hv⟩ | ⟨items, hv⟩ | ⟨fields, hv⟩ := v.cases_atomic
  · exact atom v text hv
  · rw [hv]
    refine array items fun w hw => ?_
    have inside := List.sizeOf_lt_of_mem hw
    have smaller : sizeOf w < sizeOf v := by
      rw [hv, Json.array.sizeOf_spec]
      omega
    exact induction_on atom array object w
  · rw [hv]
    refine object fields fun field hf => ?_
    have inside := sizeOf_snd_lt hf
    have smaller : sizeOf field.2 < sizeOf v := by
      rw [hv, Json.object.sizeOf_spec]
      omega
    exact induction_on atom array object field.2
termination_by v

/-! ## Lists -/

/-- Texts between brackets, each on a line of its own. -/
def block (opening closing : Char) (level : Nat) : List (List Char) → List Char
  | [] => [opening, closing]
  | text :: texts =>
    opening :: lineAt (level + 1) ++ text ++ texts.flatMap (',' :: lineAt (level + 1) ++ ·)
      ++ lineAt level ++ [closing]

theorem itemsAt_eq (level : Nat) (items : List Json) :
    itemsAt level items = (items.map (textAt level)).flatMap (',' :: lineAt level ++ ·) := by
  induction items with
  | nil => rfl
  | cons v items ih => simp [itemsAt, ih]

theorem fieldsAt_eq (level : Nat) (fields : List (String × Json)) :
    fieldsAt level fields = (fields.map (fieldAt level)).flatMap (',' :: lineAt level ++ ·) := by
  induction fields with
  | nil => rfl
  | cons field fields ih => simp [fieldsAt, ih]

theorem textAt_array (level : Nat) (items : List Json) :
    textAt level (array items) = block '[' ']' level (items.map (textAt (level + 1))) := by
  cases items with
  | nil => rfl
  | cons v items => simp [textAt, block, itemsAt_eq]

theorem textAt_object (level : Nat) (fields : List (String × Json)) :
    textAt level (object fields) =
      block '\x7b' '\x7d' level (fields.map (fieldAt (level + 1))) := by
  cases fields with
  | nil => rfl
  | cons field fields => simp [textAt, block, fieldsAt_eq]

/-- The text of `a` determines `f a`, whatever ends it. -/
def Tells {α β : Type} (text : α → List Char) (f : α → β) (a : α) : Prop :=
  ∀ b s t, Ends s → Ends t → text a ++ s = text b ++ t → f a = f b ∧ s = t

theorem ends_lineAt (level : Nat) (s : List Char) : Ends (lineAt level ++ s) := by
  rintro c ⟨⟩
  exact .inr rfl

section
variable {α β : Type} {text : α → List Char} {f : α → β}

theorem ends_flatMap (level level' : Nat) (texts : List (List Char)) (s : List Char) :
    Ends (texts.flatMap (',' :: lineAt level ++ ·) ++ (lineAt level' ++ s)) := by
  cases texts with
  | nil => exact ends_lineAt level' s
  | cons text texts =>
    rintro c ⟨⟩
    exact .inl rfl

/-- The elements behind the first one: a comma is no line break. -/
theorem flatMap_tells {level level' : Nat} {xs ys : List α} (h : ∀ a ∈ xs, Tells text f a)
    {s t : List Char}
    (same : (xs.map text).flatMap (',' :: lineAt level ++ ·) ++ (lineAt level' ++ s) =
      (ys.map text).flatMap (',' :: lineAt level ++ ·) ++ (lineAt level' ++ t)) :
    xs.map f = ys.map f ∧ s = t := by
  induction xs generalizing ys with
  | nil =>
    cases ys with
    | nil => exact ⟨rfl, List.append_cancel_left same⟩
    | cons b ys => cases same
  | cons a xs ih =>
    cases ys with
    | nil => cases same
    | cons b ys =>
      rw [List.forall_mem_cons] at h
      simp only [List.map_cons, List.flatMap_cons, List.append_assoc, List.cons_append,
        List.cons.injEq, true_and, List.append_cancel_left_eq] at same
      obtain ⟨head, rest⟩ := h.1 b _ _ (ends_flatMap _ _ _ _) (ends_flatMap _ _ _ _) same
      obtain ⟨tail, same⟩ := ih h.2 rest
      exact ⟨by rw [List.map_cons, List.map_cons, head, tail], same⟩

/-- **A text between brackets tells its elements**, and needs no end. -/
theorem block_tells {opening closing : Char} (hc : closing ≠ '\n') {level : Nat} {xs ys : List α}
    (h : ∀ a ∈ xs, Tells text f a) {s t : List Char}
    (same : block opening closing level (xs.map text) ++ s =
      block opening closing level (ys.map text) ++ t) :
    xs.map f = ys.map f ∧ s = t := by
  cases xs with
  | nil =>
    cases ys with
    | nil => exact ⟨rfl, by simpa [block] using same⟩
    | cons b ys => simp [block, lineAt, hc] at same
  | cons a xs =>
    cases ys with
    | nil => simp [block, lineAt, hc.symm] at same
    | cons b ys =>
      rw [List.forall_mem_cons] at h
      simp only [List.map_cons, block, List.append_assoc, List.cons_append, List.cons.injEq,
        true_and, List.append_cancel_left_eq] at same
      obtain ⟨head, rest⟩ := h.1 b _ _ (ends_flatMap _ _ _ _) (ends_flatMap _ _ _ _) same
      obtain ⟨tail, same⟩ := flatMap_tells h.2 rest
      exact ⟨by rw [List.map_cons, List.map_cons, head, tail], by simpa using same⟩

end

theorem head?_block (opening closing : Char) (level : Nat) (texts : List (List Char)) :
    (block opening closing level texts).head? = some opening := by
  cases texts <;> rfl

theorem tells_fieldAt {level : Nat} {field : String × Json}
    (h : Tells (textAt level) shape field.2) :
    Tells (fieldAt level) (fun field => (field.1, field.2.shape)) field := by
  obtain ⟨name, v⟩ := field
  rintro ⟨name', w⟩ s t hs ht same
  simp only [fieldAt, List.append_assoc, List.cons_append] at same
  obtain ⟨rfl, rest⟩ := quotedText_append_inj same
  simp only [List.cons.injEq, true_and] at rest
  obtain ⟨value, same⟩ := h w s t hs ht rest
  exact ⟨Prod.ext rfl value, same⟩

/-! ## Values -/

/-- The bracket with which a shape begins, if it is a list. -/
def Shape.opening : Shape → Option Char
  | atom _ => none
  | array _ => some '['
  | object _ => some '\x7b'

/-- The first character tells which kind of list a value is. -/
theorem opening_shape (v : Json) (level : Nat) (s : List Char) :
    v.shape.opening = (v.textAt level ++ s).head?.filter (· ∈ ['[', '\x7b']) := by
  obtain ⟨text, h⟩ | ⟨items, rfl⟩ | ⟨fields, rfl⟩ := v.cases_atomic
  · rw [h.shape_eq, h.textAt_eq]
    obtain ⟨x⟩ | @⟨c, a, ha⟩ := h.isAtom
    · rfl
    · have plain := List.all_eq_true.1 ha c (by simp)
      simp only [inPlain, List.mem_cons, List.not_mem_nil, or_false, not_or,
        decide_eq_true_eq] at plain
      have bracket : c ∉ ['[', '\x7b'] := by simp [plain]
      simp only [Shape.opening, List.cons_append, List.head?_cons, Option.filter_some, bracket,
        decide_false, Bool.false_eq_true, if_false]
  · rw [textAt_array, List.head?_append, head?_block]
    rfl
  · rw [textAt_object, List.head?_append, head?_block]
    rfl

/-- **The text of a value determines its shape**, at every level and whatever ends it. -/
theorem tells_textAt (v : Json) (level : Nat) : Tells (textAt level) shape v := by
  induction v using induction_on generalizing level with
  | atom v a ha =>
    intro w s t hs ht same
    have openings := opening_shape v level s
    rw [same, ← opening_shape, ha.shape_eq] at openings
    obtain ⟨b, hb⟩ | ⟨items', rfl⟩ | ⟨fields', rfl⟩ := w.cases_atomic
    · rw [ha.textAt_eq, hb.textAt_eq] at same
      obtain ⟨texts, rest⟩ := ha.isAtom.append_inj hb.isAtom hs ht same
      exact ⟨by rw [ha.shape_eq, hb.shape_eq, texts], rest⟩
    · cases openings
    · cases openings
  | array items ih =>
    intro w s t hs ht same
    have openings := opening_shape (array items) level s
    rw [same, ← opening_shape] at openings
    obtain ⟨b, hb⟩ | ⟨items', rfl⟩ | ⟨fields', rfl⟩ := w.cases_atomic
    · rw [hb.shape_eq] at openings
      cases openings
    · rw [textAt_array, textAt_array] at same
      obtain ⟨shapes, rest⟩ := block_tells (by decide) (fun v hv => ih v hv (level + 1)) same
      exact ⟨by simp [shape, shapes], rest⟩
    · cases openings
  | object fields ih =>
    intro w s t hs ht same
    have openings := opening_shape (object fields) level s
    rw [same, ← opening_shape] at openings
    obtain ⟨b, hb⟩ | ⟨items', rfl⟩ | ⟨fields', rfl⟩ := w.cases_atomic
    · rw [hb.shape_eq] at openings
      cases openings
    · cases openings
    · rw [textAt_object, textAt_object] at same
      obtain ⟨shapes, rest⟩ := block_tells (by decide)
        (fun field hf => tells_fieldAt (ih field hf (level + 1))) same
      exact ⟨by simp [shape, shapes], rest⟩

theorem shape_inj {v w : Json} (h : v.textAt 0 = w.textAt 0) : v.shape = w.shape := by
  have ends : Ends [] := by
    rintro c ⟨⟩
  refine (v.tells_textAt 0 w [] [] ends ends ?_).1
  rw [h]

/-! ## Atoms by their shapes -/

theorem boolean_shape_injective : Function.Injective fun b => (boolean b).shape := by
  intro a b h
  cases a <;> cases b <;> first | rfl | cases h

theorem natural_shape_injective : Function.Injective fun n => (natural n).shape := by
  intro a b h
  have read := congrArg Decimal.ofDigits (Shape.atom.inj h)
  rwa [textAt_natural, textAt_natural, Decimal.ofDigits_digitsOf, Decimal.ofDigits_digitsOf] at read

theorem string_shape_injective : Function.Injective fun s => (string s).shape := by
  intro a b h
  have quoted := congrArg (· ++ []) (Shape.atom.inj h)
  exact (quotedText_append_inj quoted).1

theorem same_of_number_shape {x y : Number} (hx : x.isFinite = true) (hy : y.isFinite = true)
    (h : (number x).shape = (number y).shape) : x.same y = true := by
  have read := congrArg Number.ofChars? (Shape.atom.inj h)
  rw [textAt, textAt, Number.ofChars?_json hx, Number.ofChars?_json hy] at read
  exact decide_eq_true (Option.some.inj read)

end Json
end PocketSql
