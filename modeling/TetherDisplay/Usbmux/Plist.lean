import TetherDisplay.Usbmux.Messages

/-!
# Reading a property list by searching

A property list is a tree, and `Entries.render` prints one with any text between its elements.
Every marker in it begins an element, so a search can only stop at one (`after_element`,
`after_key`).  From there the reading is by the tree: behind a key stands its value, and where that
is of another kind, every element of the wanted kind is behind the next key (`noneBefore_render`).
`Entries.valueIn_render` puts this together, by induction on the tree, for whatever follows it.
-/

namespace TetherDisplay.Usbmux

open Text (ascii)
open Search (find findFrom Precedes)

/-! ## The tree -/

/-- The left angle bracket. -/
def lt : UInt8 := 60
/-- The right angle bracket. -/
def gt : UInt8 := 62

/-- Text between two tags. -/
abbrev CharData := {s : Bytes // lt ∉ s}

/-- The kinds of values that are text. -/
inductive Scalar where
  | string
  | integer
  deriving DecidableEq

/-- The name of the element. -/
def Scalar.tag : Scalar → Bytes
  | .string => ascii "string"
  | .integer => ascii "integer"

/-- A tag and the text behind it. -/
def element (name text : Bytes) : Bytes := lt :: (name ++ gt :: text)

/-- The entries of a dictionary, each with the text behind its tags: a key with a scalar or with a
dictionary of its own. -/
inductive Entries where
  | nil
  | scalar (key gap : CharData) (kind : Scalar) (text after : CharData) (rest : Entries)
  | dict (key gap before : CharData) (inner : Entries) (after : CharData) (rest : Entries)

/-- The value of a key. -/
inductive Value where
  | scalar (kind : Scalar) (text : Bytes)
  | dict
  deriving DecidableEq

namespace Entries

/-- The entries as text. -/
def render : Entries → Bytes
  | nil => []
  | scalar key gap kind text after rest =>
      element (ascii "key") key ++ element (ascii "/key") gap ++ element kind.tag text ++
        element (ascii "/" ++ kind.tag) after ++ rest.render
  | dict key gap before inner after rest =>
      element (ascii "key") key ++ element (ascii "/key") gap ++ element (ascii "dict") before ++
        inner.render ++ element (ascii "/dict") after ++ rest.render

/-- The keys with their values, at any depth, in the order of the text. -/
def entries : Entries → List (Bytes × Value)
  | nil => []
  | scalar key _ kind text _ rest => (key, .scalar kind text) :: rest.entries
  | dict key _ _ inner _ rest => (key, .dict) :: (inner.entries ++ rest.entries)

/-- The keys. -/
def keys (d : Entries) : List Bytes := d.entries.map Prod.fst

/-- The value of the first such key. -/
def lookup (d : Entries) (k : Bytes) : Option Value :=
  (d.entries.find? (·.1 = k)).map Prod.snd

end Entries

/-- A declaration, or a tag that is none of the elements: `<?xml …>`, `<!DOCTYPE …>`,
`<plist …>`, `</plist>`, with the text behind it. -/
abbrev Markup := {s : Bytes // lt ∉ s ∧ s.head? ∈ [some 63, some 33, some 112, some 47]}

/-- The markup as text. -/
def renderMarkup (ms : List Markup) : Bytes := ms.flatMap fun m => lt :: m.1

/-- A whole property list. -/
structure Plist where
  front : CharData
  prolog : List Markup
  before : CharData
  root : Entries
  after : CharData
  epilog : List Markup

/-- A property list as text. -/
def Plist.render (p : Plist) : Bytes :=
  p.front ++ (renderMarkup p.prolog ++ (element (ascii "dict") p.before ++
    (p.root.render ++ (element (ascii "/dict") p.after ++ renderMarkup p.epilog))))

/-! ## Where an element stands -/

/-- The pattern of a key, without its first character. -/
def keyRest (k : Bytes) : Bytes := ascii "key" ++ gt :: (k ++ lt :: (ascii "/key" ++ [gt]))

/-- What follows the `<` of an opening tag. -/
def openingRest (tag : Bytes) : Bytes := tag ++ [gt]

theorem keyMarker_eq (k : Bytes) : ascii "<key>" ++ k ++ ascii "</key>" = lt :: keyRest k := by
  have hopening : ascii "<key>" = lt :: (ascii "key" ++ [gt]) := by decide
  have hclosing : ascii "</key>" = lt :: (ascii "/key" ++ [gt]) := by decide
  rw [hopening, hclosing, keyRest]
  simp

theorem opening_eq (tag : Bytes) : ascii "<" ++ tag ++ ascii ">" = lt :: openingRest tag := by
  have hlt : ascii "<" = [lt] := by decide
  have hgt : ascii ">" = [gt] := by decide
  rw [hlt, hgt, openingRest]
  simp

theorem closing_eq (tag : Bytes) :
    ascii "</" ++ tag ++ ascii ">" = lt :: openingRest (ascii "/" ++ tag) := by
  have hlt : ascii "</" = lt :: ascii "/" := by decide
  have hgt : ascii ">" = [gt] := by decide
  rw [hlt, hgt, openingRest]
  simp

theorem nextKey_eq : ascii "<key>" = lt :: openingRest (ascii "key") := by decide

/-- The names of the elements: free of markers, and told apart from what is searched for by their
first character. -/
theorem tag_head (kind : Scalar) : kind.tag.head? = some 115 ∨ kind.tag.head? = some 105 := by
  cases kind with
  | string => exact Or.inl (by decide)
  | integer => exact Or.inr (by decide)

theorem head_key : (ascii "key").head? = some 107 := by decide

theorem head_keyEnd : (ascii "/key").head? = some 47 := by decide

theorem head_dict : (ascii "dict").head? = some 100 := by decide

theorem head_dictEnd : (ascii "/dict").head? = some 47 := by decide

theorem head_slash (tag : Bytes) : (ascii "/" ++ tag).head? = some 47 := by
  have hslash : ascii "/" = [47] := by decide
  rw [hslash]
  rfl

theorem lt_notMem_tag (kind : Scalar) : lt ∉ kind.tag := by
  cases kind <;> decide

theorem lt_notMem_closing (kind : Scalar) : lt ∉ ascii "/" ++ kind.tag := by
  cases kind <;> decide

theorem lt_notMem_names : lt ∉ ascii "key" ∧ lt ∉ ascii "/key" ∧ lt ∉ ascii "dict" ∧
    lt ∉ ascii "/dict" := by decide

/-- A pattern does not stand at an element that begins otherwise. -/
theorem not_stands {q s : Bytes} (hq : q ≠ []) (h : q.head? ≠ s.head?) :
    ¬ lt :: q <+: lt :: s := by
  intro hprefix
  obtain ⟨r, hr⟩ := (List.cons_prefix_cons.mp hprefix).2
  cases q with
  | nil => exact hq rfl
  | cons c q =>
      rw [← hr] at h
      exact h rfl

theorem opening_ne {kind : Scalar} {s : Bytes}
    (h : s.head? ≠ some 115 ∧ s.head? ≠ some 105) : ¬ lt :: openingRest kind.tag <+: lt :: s := by
  have hne : kind.tag ≠ [] := by cases kind <;> decide
  refine not_stands (by simp [openingRest]) ?_
  rw [openingRest, List.head?_append_of_ne_nil _ hne]
  rcases tag_head kind with hhead | hhead
  · rw [hhead]
    exact h.1.symm
  · rw [hhead]
    exact h.2.symm

variable {q name text X : Bytes}

theorem element_append : element name text ++ X = lt :: (name ++ gt :: text ++ X) := rfl

theorem head_element {c : UInt8} (h : name.head? = some c) :
    (name ++ gt :: text ++ X).head? = some c := by
  rw [List.append_assoc, List.head?_append, h]
  rfl

theorem lt_notMem_element (hname : lt ∉ name) (htext : lt ∉ text) : lt ∉ name ++ gt :: text := by
  have hgt : lt ≠ gt := by decide
  simp [hname, htext, hgt]

/-- The search passes over an element. -/
theorem after_element (hname : lt ∉ name) (htext : lt ∉ text)
    (h : ¬ lt :: q <+: element name text ++ X) :
    Search.after (lt :: q) (element name text ++ X) = Search.after (lt :: q) X :=
  Search.after_mark (lt_notMem_element hname htext) h

/-- An element may stand before. -/
theorem precedes_element {q' : Bytes} (h : Precedes (lt :: q') (lt :: q) X) (hname : lt ∉ name)
    (htext : lt ∉ text) (hne : ¬ lt :: q <+: element name text ++ X) :
    Precedes (lt :: q') (lt :: q) (element name text ++ X) :=
  h.mark (lt_notMem_element hname htext) hne

/-! ## Finding the key -/

theorem keyRest_head (k : Bytes) : (keyRest k).head? = some 107 := by
  rw [keyRest, List.head?_append, head_key]
  rfl

/-- A key does not stand at an element of another name. -/
theorem after_other {k : Bytes} (hhead : (name ++ gt :: text ++ X).head? ≠ some 107)
    (hname : lt ∉ name) (htext : lt ∉ text) :
    Search.after (lt :: keyRest k) (element name text ++ X) = Search.after (lt :: keyRest k) X := by
  refine after_element hname htext (not_stands ?_ ?_)
  · simp [keyRest]
  · rw [keyRest_head]
    exact hhead.symm

/-- The key of an entry is the one that is looked for, and its value follows; or it is not, and
both its tags are skipped. -/
theorem after_key {k : Bytes} (hk : lt ∉ k) (k' gap : CharData) (X : Bytes) :
    Search.after (lt :: keyRest k) (element (ascii "key") k' ++ (element (ascii "/key") gap ++ X)) =
      if k'.1 = k then some (gap ++ X) else Search.after (lt :: keyRest k) X := by
  obtain ⟨hkey, hslash, -, -⟩ := lt_notMem_names
  split_ifs with h
  · have hfront : element (ascii "key") k' ++ (element (ascii "/key") gap ++ X) =
        (lt :: keyRest k) ++ (gap ++ X) := by
      simp [element, keyRest, h]
    rw [hfront, Search.after_front]
  · have hne : ¬ lt :: keyRest k <+:
        element (ascii "key") k' ++ (element (ascii "/key") gap ++ X) := by
      intro hprefix
      have hbody : (ascii "key" ++ gt :: k) ++ lt :: (ascii "/key" ++ [gt]) <+:
          (ascii "key" ++ gt :: k'.1) ++ lt :: (ascii "/key" ++ gt :: (gap.1 ++ X)) := by
        simpa [element, keyRest] using (List.cons_prefix_cons.mp hprefix).2
      have heq := Search.eq_of_marked (lt_notMem_element hkey hk) (lt_notMem_element hkey k'.2)
        hbody
      exact h (List.cons.inj (List.append_cancel_left heq)).2.symm
    have hclosing : (ascii "/key" ++ gt :: gap.1 ++ X).head? ≠ some 107 := by
      rw [head_element head_keyEnd]
      decide
    rw [after_element hkey k'.2 hne, after_other hclosing hslash gap.2]

/-! ## Reading the value -/

/-- `valueAfterKey` from the end of the key on. -/
def valueIn (tag rest : Bytes) : Option Bytes :=
  (find (lt :: openingRest tag) rest).bind fun opos =>
    if (find (lt :: openingRest (ascii "key")) rest).any (· < opos) then none
    else
      let inner := rest.drop (opos + (lt :: openingRest tag).length)
      (find (lt :: openingRest (ascii "/" ++ tag)) inner).map fun cpos => inner.take cpos

theorem findFrom_of_le {p s : Bytes} {pos : ℕ} (h : pos ≤ s.length) :
    findFrom p s pos = (find p (s.drop pos)).map (· + pos) := if_pos h

/-- **The positions do not matter**, only the text behind the key. -/
theorem valueAfterKey_eq (xml key tag : Bytes) :
    valueAfterKey xml key tag = (Search.after (lt :: keyRest key) xml).bind (valueIn tag) := by
  simp only [valueAfterKey, keyMarker_eq, opening_eq, closing_eq]
  simp only [nextKey_eq, Search.after]
  rw [findFrom_of_le (Nat.zero_le _), List.drop_zero]
  cases hkey : find (lt :: keyRest key) xml with
  | none => rfl
  | some kpos =>
      have hkend := Search.add_length_le_of_find hkey
      set kend := kpos + (lt :: keyRest key).length with hend
      set rest := xml.drop kend with hrest
      simp only [Option.map_some, Nat.add_zero, Option.bind_eq_bind, Option.bind_some, valueIn,
        ← hend, findFrom_of_le hkend, ← hrest]
      cases hopen : find (lt :: openingRest tag) rest with
      | none => rfl
      | some opos =>
          have hvstart : opos + kend + (lt :: openingRest tag).length ≤ xml.length := by
            have hle := Search.add_length_le_of_find hopen
            rw [hrest, List.length_drop] at hle
            omega
          have hany : ((find (lt :: openingRest (ascii "key")) rest).map (· + kend)).any
                (· < opos + kend) =
              (find (lt :: openingRest (ascii "key")) rest).any (· < opos) := by
            cases find (lt :: openingRest (ascii "key")) rest <;> simp
          have hinner : xml.drop (opos + kend + (lt :: openingRest tag).length) =
              rest.drop (opos + (lt :: openingRest tag).length) := by
            rw [hrest, List.drop_drop]
            congr 1
            omega
          simp only [Option.map_some, Option.bind_some, hany, findFrom_of_le hvstart, hinner]
          split_ifs
          · rfl
          · cases find (lt :: openingRest (ascii "/" ++ tag))
              (rest.drop (opos + (lt :: openingRest tag).length)) <;> simp

/-- The element behind the key is of the wanted kind. -/
theorem valueIn_scalar (gap : CharData) (kind : Scalar) (text after : CharData) (X : Bytes) :
    valueIn kind.tag (gap ++ (element kind.tag text ++
      (element (ascii "/" ++ kind.tag) after ++ X))) = some text.1 := by
  set Y := element (ascii "/" ++ kind.tag) after ++ X with hY
  have hsplit : element kind.tag text ++ Y = (lt :: openingRest kind.tag) ++ (text.1 ++ Y) := by
    simp [element, openingRest]
  have hopen : find (lt :: openingRest kind.tag) (gap ++ (element kind.tag text ++ Y)) =
      some gap.1.length := by
    rw [Search.find_append gap.2, hsplit, Search.find_front (List.prefix_append _ _)]
    simp
  have hnext : (find (lt :: openingRest (ascii "key")) (gap ++ (element kind.tag text ++ Y))).any
      (· < gap.1.length) = false := by
    rw [Search.find_append gap.2]
    cases find (lt :: openingRest (ascii "key")) (element kind.tag text ++ Y) <;> simp
  have hinner : (gap.1 ++ (element kind.tag text ++ Y)).drop
      (gap.1.length + (lt :: openingRest kind.tag).length) = text.1 ++ Y := by
    rw [List.drop_length_add_append, hsplit, List.drop_left]
  have hclose : find (lt :: openingRest (ascii "/" ++ kind.tag)) (text.1 ++ Y) =
      some text.1.length := by
    have hfront : Y = (lt :: openingRest (ascii "/" ++ kind.tag)) ++ (after.1 ++ X) := by
      simp [hY, element, openingRest]
    rw [Search.find_append text.2, hfront, Search.find_front (List.prefix_append _ _)]
    simp
  simp only [valueIn, hopen, Option.bind_some, hnext, hinner, hclose, Option.map_some,
    List.take_left, Bool.false_eq_true, if_false]

/-- Where the next key comes first, there is no value. -/
theorem valueIn_none {tag rest : Bytes}
    (h : Precedes (lt :: openingRest (ascii "key")) (lt :: openingRest tag) rest) :
    valueIn tag rest = none := by
  rw [valueIn]
  cases hopen : find (lt :: openingRest tag) rest with
  | none => rfl
  | some opos =>
      obtain ⟨j, hj, hlt⟩ := h opos hopen
      simp [hj, hlt]

/-! ## Reading a tree -/

/-- What behind a key, or behind the end of a dictionary, tells that there is no value of this
kind. -/
def NoneBefore (kind : Scalar) (X : Bytes) : Prop :=
  Precedes (lt :: openingRest (ascii "key")) (lt :: openingRest kind.tag) X

variable {kind : Scalar}

/-- A key is where the next value's search stops. -/
theorem noneBefore_key (text X : Bytes) : NoneBefore kind (element (ascii "key") text ++ X) := by
  rw [NoneBefore, element_append]
  refine Search.precedes_front ?_ (opening_ne ?_)
  · exact ⟨text ++ X, by simp [openingRest]⟩
  · rw [head_element head_key]
    decide

/-- An element that begins with another character than the wanted kind is passed. -/
theorem noneBefore_element (h : NoneBefore kind X) {c : UInt8} (hhead : name.head? = some c)
    (hc : c ≠ 115 ∧ c ≠ 105) (hname : lt ∉ name) (htext : lt ∉ text) :
    NoneBefore kind (element name text ++ X) := by
  have hne : ¬ lt :: openingRest kind.tag <+: element name text ++ X := by
    rw [element_append]
    refine opening_ne ?_
    rw [head_element hhead]
    simpa using hc
  exact precedes_element h hname htext hne

/-- A scalar of the other kind is passed. -/
theorem noneBefore_scalar (h : NoneBefore kind X) {other : Scalar} (hne : other ≠ kind)
    (text : CharData) : NoneBefore kind (element other.tag text ++ X) := by
  have hheads : (openingRest kind.tag).head? ≠ (other.tag ++ gt :: text.1 ++ X).head? := by
    have hstring : Scalar.string.tag.head? = some 115 := by decide
    have hinteger : Scalar.integer.tag.head? = some 105 := by decide
    cases kind <;> cases other <;> first | exact absurd rfl hne | skip
    · rw [head_element hinteger, openingRest, List.head?_append, hstring]
      decide
    · rw [head_element hstring, openingRest, List.head?_append, hinteger]
      decide
  have hstands : ¬ lt :: openingRest kind.tag <+: element other.tag text ++ X := by
    rw [element_append]
    exact not_stands (by simp [openingRest]) hheads
  exact precedes_element h (lt_notMem_tag other) text.2 hstands

/-- **The wanted kind comes after the next key**, in any tree, if it does in what follows. -/
theorem noneBefore_render (d : Entries) (h : NoneBefore kind X) :
    NoneBefore kind (d.render ++ X) := by
  cases d with
  | nil => exact h
  | scalar key gap other text after rest =>
      simp only [Entries.render, List.append_assoc]
      exact noneBefore_key _ _
  | dict key gap before inner after rest =>
      simp only [Entries.render, List.append_assoc]
      exact noneBefore_key _ _

/-- The value as one of this kind. -/
def Value.get (kind : Scalar) : Value → Option Bytes
  | .scalar other text => if other = kind then some text else none
  | .dict => none

namespace Entries

/-- The lookup of a key in front of a text. -/
theorem lookup_scalar (key gap : CharData) (other : Scalar) (text after : CharData)
    (rest : Entries) (k : Bytes) : (scalar key gap other text after rest).lookup k =
      if key.1 = k then some (.scalar other text) else rest.lookup k := by
  rw [lookup, entries, List.find?_cons]
  split_ifs with h
  · simp [h]
  · simp [h, lookup]

/-- The lookup of a key in front of a dictionary, which is looked into. -/
theorem lookup_dict (key gap before : CharData) (inner : Entries) (after : CharData)
    (rest : Entries) (k : Bytes) : (dict key gap before inner after rest).lookup k =
      if key.1 = k then some .dict else (inner.lookup k).or (rest.lookup k) := by
  rw [lookup, entries, List.find?_cons]
  split_ifs with h
  · simp [h]
  · simp only [h, decide_false, List.find?_append, lookup]
    cases List.find? (fun e => decide (e.1 = k)) inner.entries <;> simp

/-- **Reading a key of a tree**, for whatever follows the tree: its value, if it is of the kind,
or what reading it from the rest gives. -/
theorem valueIn_render {k : Bytes} (hk : lt ∉ k) (d : Entries) (h : NoneBefore kind X) :
    (Search.after (lt :: keyRest k) (d.render ++ X)).bind (valueIn kind.tag) =
      (d.lookup k).elim ((Search.after (lt :: keyRest k) X).bind (valueIn kind.tag))
        (Value.get kind) := by
  induction d generalizing X with
  | nil => rfl
  | scalar key gap other text after rest ih =>
      have hafter : NoneBefore kind
          (element (ascii "/" ++ other.tag) after ++ (rest.render ++ X)) :=
        noneBefore_element (noneBefore_render rest h) (head_slash _) (by decide)
          (lt_notMem_closing other) after.2
      rw [lookup_scalar]
      simp only [render, List.append_assoc]
      rw [after_key hk]
      split_ifs with hkey
      · simp only [Option.bind_some, Option.elim_some, Value.get]
        split_ifs with hkind
        · rw [← hkind, valueIn_scalar]
        · exact valueIn_none ((noneBefore_scalar hafter hkind text).append gap.2)
      · have htag : (other.tag ++ gt :: text.1 ++ (element (ascii "/" ++ other.tag) after ++
            (rest.render ++ X))).head? ≠ some 107 := by
          rcases tag_head other with hhead | hhead <;>
            · rw [head_element hhead]
              decide
        have hclosing : ((ascii "/" ++ other.tag) ++ gt :: after.1 ++ (rest.render ++ X)).head? ≠
            some 107 := by
          rw [head_element (head_slash _)]
          decide
        rw [after_other htag (lt_notMem_tag other) text.2,
          after_other hclosing (lt_notMem_closing other) after.2, ih h]
  | dict key gap before inner after rest ihInner ihRest =>
      obtain ⟨-, -, hdict, hend⟩ := lt_notMem_names
      have hafter : NoneBefore kind (element (ascii "/dict") after ++ (rest.render ++ X)) :=
        noneBefore_element (noneBefore_render rest h) head_dictEnd (by decide) hend after.2
      rw [lookup_dict]
      simp only [render, List.append_assoc]
      rw [after_key hk]
      split_ifs with hkey
      · simp only [Option.bind_some, Option.elim_some, Value.get]
        have hinner := noneBefore_element (noneBefore_render inner hafter) head_dict (by decide)
          hdict before.2
        exact valueIn_none (hinner.append gap.2)
      · have hopening : (ascii "dict" ++ gt :: before.1 ++ (inner.render ++
            (element (ascii "/dict") after ++ (rest.render ++ X)))).head? ≠ some 107 := by
          rw [head_element head_dict]
          decide
        have hclosing : (ascii "/dict" ++ gt :: after.1 ++ (rest.render ++ X)).head? ≠
            some 107 := by
          rw [head_element head_dictEnd]
          decide
        rw [after_other hopening hdict before.2, ihInner hafter,
          after_other hclosing hend after.2, ihRest h]
        cases inner.lookup k with
        | none => rfl
        | some v => rfl

end Entries

/-! ## Reading a property list -/

theorem markup_head (m : Markup) {c : UInt8} (hc : c ∉ [(63 : UInt8), 33, 112, 47]) :
    (m.1 ++ X).head? ≠ some c := by
  obtain ⟨s, hlt, hhead⟩ := m
  cases s with
  | nil => simp at hhead
  | cons b s =>
      intro h
      cases h
      simp only [List.mem_cons, List.head?_cons, Option.some_inj, List.not_mem_nil, or_false,
        not_or] at hhead hc
      tauto

/-- The search passes over markup. -/
theorem after_markup (k : Bytes) (ms : List Markup) (X : Bytes) :
    Search.after (lt :: keyRest k) (renderMarkup ms ++ X) = Search.after (lt :: keyRest k) X := by
  induction ms with
  | nil => rfl
  | cons m ms ih =>
      have hne : ¬ lt :: keyRest k <+: lt :: (m.1 ++ (renderMarkup ms ++ X)) := by
        refine not_stands (by simp [keyRest]) ?_
        rw [keyRest_head]
        exact (markup_head m (by decide)).symm
      have hcons : renderMarkup (m :: ms) ++ X = lt :: (m.1 ++ (renderMarkup ms ++ X)) := by
        simp [renderMarkup]
      rw [hcons, Search.after_mark m.2.1 hne, ih]

/-- There is no value in markup. -/
theorem noneBefore_markup (ms : List Markup) : NoneBefore kind (renderMarkup ms) := by
  induction ms with
  | nil => exact Search.precedes_nil (List.cons_ne_nil _ _)
  | cons m ms ih =>
      have hne : ¬ lt :: openingRest kind.tag <+: lt :: (m.1 ++ renderMarkup ms) :=
        opening_ne ⟨markup_head m (by decide), markup_head m (by decide)⟩
      exact Precedes.mark ih m.2.1 hne

/-- **The value of a key of a property list.** -/
theorem valueAfterKey_render (p : Plist) {k : Bytes} (hk : lt ∉ k) (kind : Scalar) :
    valueAfterKey p.render k kind.tag = (p.root.lookup k).bind (Value.get kind) := by
  obtain ⟨-, -, hdict, hend⟩ := lt_notMem_names
  have hopening : (ascii "dict" ++ gt :: p.before.1 ++ (p.root.render ++
      (element (ascii "/dict") p.after ++ renderMarkup p.epilog))).head? ≠ some 107 := by
    rw [head_element head_dict]
    decide
  have hclosing : (ascii "/dict" ++ gt :: p.after.1 ++ renderMarkup p.epilog).head? ≠ some 107 := by
    rw [head_element head_dictEnd]
    decide
  have htail : NoneBefore kind (element (ascii "/dict") p.after ++ renderMarkup p.epilog) :=
    noneBefore_element (noneBefore_markup p.epilog) head_dictEnd (by decide) hend p.after.2
  have hnone : Search.after (lt :: keyRest k)
      (element (ascii "/dict") p.after ++ renderMarkup p.epilog) = none := by
    rw [after_other hclosing hend p.after.2, ← List.append_nil (renderMarkup p.epilog),
      after_markup]
    rfl
  rw [valueAfterKey_eq, Plist.render, Search.after_append p.front.2, after_markup,
    after_other hopening hdict p.before.2, Entries.valueIn_render hk p.root htail, hnone]
  cases p.root.lookup k <;> rfl

/-- The text of an integer element is a numeral of the integer. -/
def Value.IsInt (v : Value) (z : Int64) : Prop :=
  ∃ text, v = .scalar .integer text ∧ Decimal.IsIntNumeral text z.toInt

/-- `ToLongLong` reads a numeral that fits. -/
theorem toLongLong_iff {raw : Bytes} {z : Int64} :
    toLongLong raw = some z ↔ Decimal.IsIntNumeral raw z.toInt := by
  rw [toLongLong]
  constructor
  · intro h
    split at h
    · next v hread =>
        obtain ⟨hnumeral, hlow, hhigh⟩ := Decimal.fromCharsSigned_whole_iff.mp hread
        rw [← Option.some.inj h, Int64.toInt_ofInt_of_le hlow hhigh]
        exact hnumeral
    · cases h
  · intro h
    have hread : Decimal.fromCharsSigned 63 raw = some (z.toInt, []) :=
      Decimal.fromCharsSigned_whole_iff.mpr ⟨h, z.le_toInt, z.toInt_lt⟩
    rw [hread]
    exact congrArg some (Int64.ofInt_toInt z)

/-- `PlistGetString` of a property list is the lookup. -/
theorem plistGetString_render (p : Plist) {k : Bytes} (hk : lt ∉ k) :
    plistGetString p.render k = (p.root.lookup k).bind (Value.get .string) :=
  valueAfterKey_render p hk .string

/-- `PlistGetInteger` of a property list is the lookup. -/
theorem plistGetInteger_render (p : Plist) {k : Bytes} (hk : lt ∉ k) (z : Int64) :
    plistGetInteger p.render k = some z ↔ ∃ v, p.root.lookup k = some v ∧ v.IsInt z := by
  have hread : valueAfterKey p.render k (ascii "integer") =
      (p.root.lookup k).bind (Value.get .integer) := valueAfterKey_render p hk .integer
  rw [plistGetInteger, hread, Option.bind_eq_some_iff]
  simp only [toLongLong_iff]
  constructor
  · rintro ⟨raw, hraw, hnumeral⟩
    obtain ⟨v, hv, hget⟩ := Option.bind_eq_some_iff.mp hraw
    cases v with
    | dict => cases hget
    | scalar other text =>
        simp only [Value.get] at hget
        split_ifs at hget with hkind
        cases hget
        exact ⟨_, hv, raw, by rw [hkind], hnumeral⟩
  · rintro ⟨v, hv, text, rfl, hnumeral⟩
    exact ⟨text, by rw [hv]; rfl, hnumeral⟩

/-- A key that occurs once has that value. -/
theorem Entries.lookup_of_mem {d : Entries} {k : Bytes} {v : Value} (honce : d.keys.count k = 1)
    (hmem : (k, v) ∈ d.entries) : d.lookup k = some v := by
  have hlength : (d.entries.filter fun e => decide (e.1 = k)).length = 1 := by
    rw [← List.countP_eq_length_filter, ← honce, Entries.keys, List.count, List.countP_map]
    congr 1
    funext e
    exact Bool.eq_iff_iff.mpr (by simp)
  obtain ⟨e, he⟩ := List.length_eq_one_iff.mp hlength
  have hin : (k, v) ∈ d.entries.filter fun e => decide (e.1 = k) :=
    List.mem_filter.mpr ⟨hmem, by simp⟩
  rw [he, List.mem_singleton] at hin
  rw [Entries.lookup, ← List.head?_filter, he, ← hin]
  rfl

/-- A key that is not there. -/
theorem Entries.lookup_of_notMem {d : Entries} {k : Bytes} (h : k ∉ d.keys) :
    d.lookup k = none := by
  have hnone : d.entries.find? (fun e => decide (e.1 = k)) = none := by
    refine List.find?_eq_none.mpr fun e he => ?_
    simpa using fun hek : e.1 = k => h (hek ▸ List.mem_map_of_mem he)
  rw [Entries.lookup, hnone]
  rfl

/-! ## The request to connect -/

theorem lt_notMem_intNumeral (z : ℤ) : lt ∉ Decimal.intNumeral z := by
  have hdigits : ∀ n, lt ∉ Decimal.numeral n := fun n hmem =>
    absurd ((Decimal.isNumeral_numeral n).2 lt hmem) (by decide)
  have hminus : lt ≠ Decimal.minus := by decide
  rw [Decimal.intNumeral]
  split_ifs with hz
  · simp [hdigits, hminus]
  · exact hdigits _

/-- The declarations that every request begins with. -/
def kProlog : List Markup :=
  [⟨ascii "?xml version=\"1.0\" encoding=\"UTF-8\"?>\n", by decide⟩,
    ⟨ascii ("!DOCTYPE plist PUBLIC \"-//Apple//DTD PLIST 1.0//EN\" " ++
      "\"http://www.apple.com/DTDs/PropertyList-1.0.dtd\">\n"), by rw [Text.ascii_append]; decide⟩,
    ⟨ascii "plist version=\"1.0\">\n", by decide⟩]

/-- No text. -/
def noText : CharData := ⟨[], by decide⟩

/-- A new line, indented. -/
def indent : CharData := ⟨ascii "\n  ", by decide⟩

/-- The tree of `boilerplate`. -/
def boilerplateEntries (progName : CharData) : Entries :=
  .scalar ⟨ascii "BundleID", by decide⟩ noText .string
    ⟨ascii "com.tetherdisplay.host", by decide⟩ indent <|
  .scalar ⟨ascii "ClientVersionString", by decide⟩ noText .string
    ⟨ascii "tetherdisplay-usbmux", by decide⟩ indent <|
  .scalar ⟨ascii "ProgName", by decide⟩ noText .string progName indent <|
  .scalar ⟨ascii "kLibUSBMuxVersion", by decide⟩ noText .integer
    ⟨ascii "3", by decide⟩ ⟨ascii "\n", by decide⟩ .nil

/-- The tree of `buildConnectPlist`. -/
def connectEntries (deviceId : Int32) (devicePort : UInt16) (progName : CharData) : Entries :=
  .scalar ⟨ascii "MessageType", by decide⟩ noText .string
    ⟨ascii "Connect", by decide⟩ indent <|
  .scalar ⟨ascii "DeviceID", by decide⟩ noText .integer
    ⟨Decimal.intNumeral deviceId.toInt, lt_notMem_intNumeral _⟩ indent <|
  .scalar ⟨ascii "PortNumber", by decide⟩ noText .integer
    ⟨Decimal.intNumeral (encodePortBigEndian devicePort).toNat, lt_notMem_intNumeral _⟩ indent <|
  boilerplateEntries progName

/-- The property list of a Connect request. -/
def connectPlist (deviceId : Int32) (devicePort : UInt16) (progName : CharData) : Plist where
  front := noText
  prolog := kProlog
  before := indent
  root := connectEntries deviceId devicePort progName
  after := ⟨ascii "\n", by decide⟩
  epilog := [⟨ascii "/plist>\n", by decide⟩]

theorem lt_eq : lt = '<'.toUInt8 := rfl

theorem gt_eq : gt = '>'.toUInt8 := rfl

/-- The header ends with the tag of the dictionary. -/
theorem kPlistHeader_eq :
    kPlistHeader = renderMarkup kProlog ++ element (ascii "dict") (ascii "\n") := by
  simp only [kPlistHeader, kProlog, renderMarkup, List.flatMap_cons, List.flatMap_nil,
    Text.ascii_append, List.append_nil, List.append_assoc, List.cons_append]
  simp [ascii, element, lt_eq, gt_eq]

/-- The fixed parts of the request, as elements: up to the device. -/
theorem beforeDevice_eq : element (ascii "dict") (ascii "\n") ++
    (ascii "  <key>MessageType</key><string>Connect</string>\n" ++
    ascii "  <key>DeviceID</key><integer>") =
      element (ascii "dict") (ascii "\n  ") ++
        (element (ascii "key") (ascii "MessageType") ++ (element (ascii "/key") [] ++
        (element (ascii "string") (ascii "Connect") ++
        (element (ascii "/" ++ ascii "string") (ascii "\n  ") ++
        (element (ascii "key") (ascii "DeviceID") ++ (element (ascii "/key") [] ++
        (lt :: (ascii "integer" ++ [gt])))))))) := by
  simp [ascii, element, lt_eq, gt_eq]

/-- From the device to the port. -/
theorem beforePort_eq : ascii "</integer>\n" ++ ascii "  <key>PortNumber</key><integer>" =
    element (ascii "/" ++ ascii "integer") (ascii "\n  ") ++
      (element (ascii "key") (ascii "PortNumber") ++ (element (ascii "/key") [] ++
      (lt :: (ascii "integer" ++ [gt])))) := by
  simp [ascii, element, lt_eq, gt_eq]

/-- From the port to the program's name. -/
theorem beforeName_eq : ascii "</integer>\n" ++
    ascii "  <key>BundleID</key><string>com.tetherdisplay.host</string>\n" ++
    ascii "  <key>ClientVersionString</key><string>tetherdisplay-usbmux</string>\n" ++
    ascii "  <key>ProgName</key><string>" =
      element (ascii "/" ++ ascii "integer") (ascii "\n  ") ++
        (element (ascii "key") (ascii "BundleID") ++ (element (ascii "/key") [] ++
        (element (ascii "string") (ascii "com.tetherdisplay.host") ++
        (element (ascii "/" ++ ascii "string") (ascii "\n  ") ++
        (element (ascii "key") (ascii "ClientVersionString") ++ (element (ascii "/key") [] ++
        (element (ascii "string") (ascii "tetherdisplay-usbmux") ++
        (element (ascii "/" ++ ascii "string") (ascii "\n  ") ++
        (element (ascii "key") (ascii "ProgName") ++ (element (ascii "/key") [] ++
        (lt :: (ascii "string" ++ [gt])))))))))))) := by
  simp [ascii, element, lt_eq, gt_eq]

/-- From the program's name on. -/
theorem behindName_eq : ascii "</string>\n" ++
    ascii "  <key>kLibUSBMuxVersion</key><integer>3</integer>\n" ++ kPlistFooter =
      element (ascii "/" ++ ascii "string") (ascii "\n  ") ++
        (element (ascii "key") (ascii "kLibUSBMuxVersion") ++ (element (ascii "/key") [] ++
        (element (ascii "integer") (ascii "3") ++
        (element (ascii "/" ++ ascii "integer") (ascii "\n") ++
        (element (ascii "/dict") (ascii "\n") ++ (lt :: ascii "/plist>\n")))))) := by
  simp [kPlistFooter, ascii, element, lt_eq, gt_eq]

/-- **The request is a rendered tree.** -/
theorem buildConnectPlist_eq (deviceId : Int32) (devicePort : UInt16) (progName : CharData) :
    buildConnectPlist deviceId devicePort progName =
      (connectPlist deviceId devicePort progName).render := by
  have hnat : ∀ n : ℕ, Decimal.intNumeral n = Decimal.numeral n := fun n => by
    rw [Decimal.intNumeral, if_neg (by omega), Int.natAbs_natCast]
  calc buildConnectPlist deviceId devicePort progName
      = kPlistHeader ++ (ascii "  <key>MessageType</key><string>Connect</string>\n" ++
          ascii "  <key>DeviceID</key><integer>" ++ (Decimal.intNumeral deviceId.toInt ++
        ((ascii "</integer>\n" ++ ascii "  <key>PortNumber</key><integer>") ++
        (Decimal.numeral (encodePortBigEndian devicePort).toNat ++
        ((ascii "</integer>\n" ++
          ascii "  <key>BundleID</key><string>com.tetherdisplay.host</string>\n" ++
          ascii "  <key>ClientVersionString</key><string>tetherdisplay-usbmux</string>\n" ++
          ascii "  <key>ProgName</key><string>") ++ (progName ++
        (ascii "</string>\n" ++ ascii "  <key>kLibUSBMuxVersion</key><integer>3</integer>\n" ++
          kPlistFooter))))))) := by
        simp only [buildConnectPlist, boilerplate, List.append_assoc]
    _ = (connectPlist deviceId devicePort progName).render := by
        rw [kPlistHeader_eq, List.append_assoc, ← List.append_assoc (element _ _),
          beforeDevice_eq, beforePort_eq, beforeName_eq, behindName_eq, ← hnat]
        simp only [Plist.render, connectPlist, connectEntries, boilerplateEntries, Entries.render,
          Scalar.tag, noText, indent, element, List.append_assoc, List.cons_append,
          List.nil_append, renderMarkup, List.flatMap_cons, List.flatMap_nil, List.append_nil]

/-- An integer that fits is read from an integer element. -/
theorem plistGetInteger_lookup {p : Plist} {k : Bytes} (hk : lt ∉ k) {z : ℤ}
    (h : p.root.lookup k = some (.scalar .integer (Decimal.intNumeral z)))
    (hlow : -2 ^ 63 ≤ z) (hhigh : z < 2 ^ 63) :
    (plistGetInteger p.render k).map Int64.toInt = some z := by
  have hz : (Int64.ofInt z).toInt = z := Int64.toInt_ofInt_of_le hlow hhigh
  have hint : (Value.scalar .integer (Decimal.intNumeral z)).IsInt (Int64.ofInt z) :=
    ⟨_, rfl, by rw [hz]; exact Decimal.isIntNumeral_intNumeral z⟩
  rw [(plistGetInteger_render p hk (Int64.ofInt z)).mpr ⟨_, h, hint⟩, Option.map_some, hz]

/-- **Fields are read as the tree has them**: a key that occurs once gives its own value, of the
kind that is asked for, and a key that does not occur gives none.  The request to connect carries
the device and the swapped port. -/
theorem plist_fields :
    (∀ (p : Plist) (k : Bytes) (v : Value), lt ∉ k → p.root.keys.count k = 1 →
      (k, v) ∈ p.root.entries → plistGetString p.render k = v.get .string ∧
        ∀ z, plistGetInteger p.render k = some z ↔ v.IsInt z) ∧
    (∀ (p : Plist) (k : Bytes), lt ∉ k → k ∉ p.root.keys →
      plistGetString p.render k = none ∧ plistGetInteger p.render k = none) ∧
    ∀ (deviceId : Int32) (devicePort : UInt16) (progName : Bytes), lt ∉ progName →
      let xml := buildConnectPlist deviceId devicePort progName
      (plistGetInteger xml (ascii "DeviceID")).map Int64.toInt = some deviceId.toInt ∧
        (plistGetInteger xml (ascii "PortNumber")).map Int64.toInt =
          some ((256 * (devicePort.toNat % 256) + devicePort.toNat / 256 : ℕ) : ℤ) := by
  refine ⟨?_, ?_, ?_⟩
  · intro p k v hk honce hmem
    have hlookup := Entries.lookup_of_mem honce hmem
    refine ⟨by rw [plistGetString_render p hk, hlookup]; rfl, fun z => ?_⟩
    rw [plistGetInteger_render p hk, hlookup]
    exact ⟨fun ⟨_, hv, hint⟩ => Option.some.inj hv ▸ hint, fun hint => ⟨v, rfl, hint⟩⟩
  · intro p k hk habsent
    have hlookup := Entries.lookup_of_notMem habsent
    refine ⟨by rw [plistGetString_render p hk, hlookup]; rfl, ?_⟩
    rw [Option.eq_none_iff_forall_ne_some]
    intro z hz
    obtain ⟨v, hv, -⟩ := (plistGetInteger_render p hk z).mp hz
    rw [hlookup] at hv
    cases hv
  · intro deviceId devicePort progName hname xml
    have hdevice : (connectPlist deviceId devicePort ⟨progName, hname⟩).root.lookup
        (ascii "DeviceID") = some (.scalar .integer (Decimal.intNumeral deviceId.toInt)) := by
      have hne : ascii "MessageType" ≠ ascii "DeviceID" := by decide
      rw [connectPlist, connectEntries, Entries.lookup_scalar, if_neg hne, Entries.lookup_scalar,
        if_pos rfl]
    have hport : (connectPlist deviceId devicePort ⟨progName, hname⟩).root.lookup
        (ascii "PortNumber") =
          some (.scalar .integer (Decimal.intNumeral (encodePortBigEndian devicePort).toNat)) := by
      have hmessage : ascii "MessageType" ≠ ascii "PortNumber" := by decide
      have hid : ascii "DeviceID" ≠ ascii "PortNumber" := by decide
      rw [connectPlist, connectEntries, Entries.lookup_scalar, if_neg hmessage,
        Entries.lookup_scalar, if_neg hid, Entries.lookup_scalar, if_pos rfl]
    have hxml : xml = (connectPlist deviceId devicePort ⟨progName, hname⟩).render :=
      buildConnectPlist_eq deviceId devicePort ⟨progName, hname⟩
    have hlow := deviceId.le_toInt
    have hhigh := deviceId.toInt_lt
    have hswapped := (encodePortBigEndian devicePort).toNat_lt
    rw [hxml, ← toNat_encodePortBigEndian]
    exact ⟨plistGetInteger_lookup (by decide) hdevice (by omega) (by omega),
      plistGetInteger_lookup (by decide) hport (by omega) (by omega)⟩

/-- The event of an attached device. -/
def attachedPlist : Plist where
  front := noText
  prolog := []
  before := noText
  root :=
    .scalar ⟨ascii "MessageType", by decide⟩ noText .string
      ⟨ascii "Attached", by decide⟩ noText <|
    .scalar ⟨ascii "DeviceID", by decide⟩ noText .integer
      ⟨ascii "7", by decide⟩ indent <|
    .dict ⟨ascii "Properties", by decide⟩ noText noText
      (.scalar ⟨ascii "ConnectionType", by decide⟩ noText .string
        ⟨ascii "USB", by decide⟩ noText .nil) noText .nil
  after := noText
  epilog := []

/-- The fields of that event, and of a request to connect. -/
theorem plist_fields_attached :
    (plistGetString attachedPlist.render (ascii "ConnectionType") = some (ascii "USB") ∧
      plistGetInteger attachedPlist.render (ascii "Properties") = none) ∧
    plistGetString attachedPlist.render (ascii "SerialNumber") = none ∧
    (plistGetInteger (buildConnectPlist 7 2345 (ascii "TetherDisplay")) (ascii "PortNumber")).map
      Int64.toInt = some 10505 := by
  refine ⟨⟨(plist_fields.1 attachedPlist _ (.scalar .string (ascii "USB")) (by decide +kernel)
    (by decide +kernel) (by decide +kernel)).1, ?_⟩,
    (plist_fields.2.1 attachedPlist _ (by decide +kernel) (by decide +kernel)).1,
    (plist_fields.2.2 7 2345 _ (by decide +kernel)).2⟩
  have hdict := (plist_fields.1 attachedPlist (ascii "Properties") .dict (by decide +kernel)
    (by decide +kernel) (by decide +kernel)).2
  rw [Option.eq_none_iff_forall_ne_some]
  intro z hz
  obtain ⟨text, htext, -⟩ := (hdict z).mp hz
  cases htext

end TetherDisplay.Usbmux
