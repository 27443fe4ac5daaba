import WordGraph.Console.Dot
import WordGraph.Proofs.Query.Token
import WordGraph.Proofs.Text.Delimited

/-!
Drawings tell the views that they were made from. No escaped text holds a parting of lines or the end
of a label, and no key or value holds a colon, so every attribute, every label and every line of a
drawing tells where it ends; and the strings that are quoted in a drawing are its labels.
-/

namespace WordGraph.Dot

open Text (Delimited delimited_number)

section Attributes

/-- Says that a text begins with a sign that no escaped text begins with: one that parts a key from
its value, closes a label or parts two lines. -/
def Breaks (u : List Char) : Prop := ∃ v, u = ':' :: v ∨ u = '"' :: v ∨ u = '\\' :: 'n' :: v

theorem escapeChar_append_cancel {c d : Char} {u v : List Char}
    (same : escapeChar c ++ u = escapeChar d ++ v) : c = d ∧ u = v := by
  simp only [escapeChar, Bool.or_eq_true, decide_eq_true_eq] at same
  split at same <;> split at same <;>
    simp only [List.cons_append, List.nil_append, List.cons.injEq, true_and] at same
  · exact same
  · rename_i plain
    exact absurd (.inl same.1.symm) plain
  · rename_i plain _
    exact absurd (.inl same.1) plain
  · exact same

theorem not_breaks_escapeChar {c : Char} (other : c ≠ ':') (u : List Char) :
    ¬ Breaks (escapeChar c ++ u) := by
  rw [escapeChar]
  intro ⟨v, h⟩
  split at h <;> simp_all

theorem delimited_escape :
    Delimited (List.flatMap escapeChar) (fun cs => ∀ c ∈ cs, c ≠ ':') Breaks := by
  have one : Delimited escapeChar (· ≠ ':') fun _ => True := fun _ _ _ _ _ _ _ _ same =>
    escapeChar_append_cancel same
  intro cs ds u v free free' next next' same
  refine one.flatMap (fun _ _ => trivial) free free' ⟨trivial, ?_⟩ ⟨trivial, ?_⟩ same
  · exact fun c w other e => not_breaks_escapeChar other w (e ▸ next)
  · exact fun c w other e => not_breaks_escapeChar other w (e ▸ next')

theorem toList_attributeLine (e : String × String) :
    (attributeLine e).toList =
      e.1.toList.flatMap escapeChar ++ ':' :: ' ' :: e.2.toList.flatMap escapeChar := by
  simp [attributeLine, escape]

/-- An attribute as it stands in a label behind something else. -/
def parted (e : String × String) : List Char := '\\' :: 'n' :: (attributeLine e).toList

theorem colon_not_mem {s : String} (h : admissible s = true) : ∀ c ∈ s.toList, c ≠ ':' :=
  ((Token.admissible_iff s).1 h).1.ne_colon

theorem delimited_parted :
    Delimited parted (fun e => admissible e.1 = true ∧ admissible e.2 = true) Breaks := by
  intro e f u v he hf next next' same
  simp only [parted, toList_attributeLine, List.cons_append, List.append_assoc, List.cons.injEq,
    true_and] at same
  obtain ⟨key, rest⟩ := delimited_escape (colon_not_mem he.1) (colon_not_mem hf.1)
    ⟨_, .inl rfl⟩ ⟨_, .inl rfl⟩ same
  simp only [List.cons.injEq, true_and] at rest
  obtain ⟨value, rest⟩ := delimited_escape (colon_not_mem he.2) (colon_not_mem hf.2) next next' rest
  exact ⟨Prod.ext (String.toList_inj.1 key) (String.toList_inj.1 value), rest⟩

/-- Attributes end at the quote that closes their label. -/
theorem delimited_attributes :
    Delimited (fun a : Attributes => a.toList.flatMap parted) (fun _ => True)
      fun u => ∃ v, u = '"' :: v := by
  intro a b u v _ _ ⟨u', hu⟩ ⟨v', hv⟩ same
  have closes {w w' : List Char} (h : w = '"' :: w') :
      Breaks w ∧ ∀ e v, (admissible e.1 = true ∧ admissible e.2 = true) → w ≠ parted e ++ v := by
    subst h
    exact ⟨⟨w', .inr (.inl rfl)⟩, fun e v _ => by simp [parted]⟩
  obtain ⟨entries, rest⟩ := delimited_parted.flatMap (fun e w => ⟨_, .inr (.inr rfl)⟩)
    a.admissible_entries b.admissible_entries (closes hu) (closes hv) same
  exact ⟨Attributes.ext_table (OrderedMap.ext_entries entries), rest⟩

end Attributes

section Labels

def nodeLabel (n : Node) : String :=
  "\\n".intercalate (n.id.text :: n.attributes.toList.map attributeLine)

/-- The label of an edge, which an edge without attributes does not have. -/
def edgeLabel? (a : Attributes) : Option String :=
  if a.isEmpty then none else some ("\\n".intercalate (a.toList.map attributeLine))

def digits (id : NodeId) : List Char := Nat.toDigits 10 id.toNat

theorem toList_text (id : NodeId) : id.text.toList = digits id := Nat.toList_repr

theorem delimited_digits :
    Delimited digits (fun _ => True) fun u => ∀ c ∈ u.head?, c.isDigit = false := by
  intro a b u v _ _ next next' same
  obtain ⟨number, rest⟩ := delimited_number trivial trivial next next' same
  exact ⟨congrArg NodeId.mk (UInt64.toNat_inj.1 number), rest⟩

theorem toList_intercalate_cons (first : String) (others : List (String × String)) :
    ("\\n".intercalate (first :: others.map attributeLine)).toList =
      first.toList ++ others.flatMap parted := by
  induction others generalizing first with
  | nil => simp
  | cons e others ih =>
      rw [List.map_cons, String.intercalate_cons_cons, String.toList_append, String.toList_append, ih,
        List.flatMap_cons, parted]
      simp

theorem toList_nodeLabel (n : Node) :
    (nodeLabel n).toList = digits n.id ++ n.attributes.toList.flatMap parted := by
  rw [nodeLabel, toList_intercalate_cons, toList_text]

/-- The label of an edge is that of a node without the number in front. -/
theorem parted_of_edgeLabel? {a : Attributes} {s : String} (has : edgeLabel? a = some s) :
    a.toList.flatMap parted = '\\' :: 'n' :: s.toList := by
  rw [edgeLabel?, Attributes.isEmpty, OrderedMap.isEmpty, show a.table.entries = a.toList from rfl] at has
  cases entries : a.toList with
  | nil =>
      rw [entries] at has
      cases has
  | cons e es =>
      rw [entries, if_neg (by simp)] at has
      cases has
      rw [List.map_cons, toList_intercalate_cons, List.flatMap_cons, parted]
      rfl

theorem eq_empty_of_edgeLabel? {a : Attributes} (none : edgeLabel? a = none) : a = ∅ := by
  rw [edgeLabel?] at none
  split at none
  · rename_i bare
    exact Attributes.ext_table (OrderedMap.ext_entries (List.isEmpty_iff.1 bare))
  · cases none

/-- A label as it stands behind the ends of an edge or the number of a node. -/
def labelled (s : String) : List Char :=
  [' ', '[', 'l', 'a', 'b', 'e', 'l', '='] ++ '"' :: (s.toList ++ ['"', ']'])

theorem labelled_intercalate (lines : List String) :
    ' ' :: (label lines).toList = labelled ("\\n".intercalate lines) := by
  simp [label, labelled, -String.toList_intercalate]

end Labels

section Lines

theorem toList_nodeLine (n : Node) :
    (nodeLine n).toList = ' ' :: ' ' :: (digits n.id ++ (labelled (nodeLabel n) ++ [';', '\n'])) := by
  rw [nodeLabel, ← labelled_intercalate]
  simp [nodeLine, toList_text]

/-- What stands behind the ends of an edge. -/
def tail (a : Attributes) : List Char := (edgeLabel? a).elim [] labelled

theorem toList_edgeLine (e : Edge) :
    (edgeLine e).toList = ' ' :: ' ' :: (digits e.source ++ ' ' :: '-' :: '>' :: ' ' ::
      (digits e.target ++ (tail e.attributes ++ [';', '\n']))) := by
  rw [edgeLine, tail, edgeLabel?]
  split <;> simp [toList_text, ← labelled_intercalate]

theorem labelled_append_cancel {s t : String} {u v : List Char} (same : labelled s ++ u = labelled t ++ v) :
    s.toList ++ '"' :: ']' :: u = t.toList ++ '"' :: ']' :: v := by
  simpa only [labelled, List.append_assoc, List.append_cancel_left_eq, List.cons_append, List.cons.injEq,
    true_and, List.nil_append] using same

theorem head_labelled (s : String) (u : List Char) :
    ∀ c ∈ (labelled s ++ u).head?, c.isDigit = false := by
  simp [labelled]

theorem head_tail (a : Attributes) (u : List Char) :
    ∀ c ∈ (tail a ++ ';' :: u).head?, c.isDigit = false := by
  rw [tail]
  cases edgeLabel? a <;> simp [labelled]

theorem delimited_nodeLine :
    Delimited (fun n => (nodeLine n).toList) (fun _ => True) fun _ => True := by
  intro n m u v _ _ _ _ same
  simp only [toList_nodeLine, List.cons_append, List.append_assoc, List.cons.injEq, true_and] at same
  obtain ⟨id, same⟩ := delimited_digits trivial trivial (head_labelled _ _) (head_labelled _ _) same
  have same := labelled_append_cancel same
  simp only [toList_nodeLabel, id, List.append_assoc, List.append_cancel_left_eq] at same
  obtain ⟨attributes, rest⟩ := delimited_attributes trivial trivial ⟨_, rfl⟩ ⟨_, rfl⟩ same
  obtain ⟨_, _⟩ := n
  obtain ⟨_, _⟩ := m
  cases id
  cases attributes
  exact ⟨rfl, by simpa using rest⟩

theorem tail_append_cancel {a b : Attributes} {u v : List Char}
    (same : tail a ++ ';' :: u = tail b ++ ';' :: v) : a = b ∧ u = v := by
  rw [tail, tail] at same
  cases ha : edgeLabel? a with
  | none =>
      cases hb : edgeLabel? b with
      | none =>
          simp only [ha, hb, Option.elim_none, List.nil_append, List.cons.injEq, true_and] at same
          exact ⟨(eq_empty_of_edgeLabel? ha).trans (eq_empty_of_edgeLabel? hb).symm, same⟩
      | some t => simp [ha, hb, labelled] at same
  | some s =>
      cases hb : edgeLabel? b with
      | none => simp [ha, hb, labelled] at same
      | some t =>
          simp only [ha, hb, Option.elim_some] at same
          -- with the parting of lines before them both labels are the attributes of their edge
          have same := congrArg (fun u => '\\' :: 'n' :: u) (labelled_append_cancel same)
          simp only [← List.cons_append, ← parted_of_edgeLabel? ha, ← parted_of_edgeLabel? hb] at same
          obtain ⟨attributes, rest⟩ := delimited_attributes trivial trivial ⟨_, rfl⟩ ⟨_, rfl⟩ same
          exact ⟨attributes, by simpa using rest⟩

theorem delimited_edgeLine :
    Delimited (fun e => (edgeLine e).toList) (fun _ => True) fun _ => True := by
  intro e f u v _ _ _ _ same
  simp only [toList_edgeLine, List.cons_append, List.append_assoc, List.cons.injEq, true_and] at same
  obtain ⟨source, same⟩ := delimited_digits trivial trivial (by simp) (by simp) same
  simp only [List.cons.injEq, true_and] at same
  obtain ⟨target, same⟩ := delimited_digits trivial trivial (head_tail _ _) (head_tail _ _) same
  obtain ⟨attributes, rest⟩ := tail_append_cancel same
  obtain ⟨_, _, _⟩ := e
  obtain ⟨_, _, _⟩ := f
  cases source
  cases target
  cases attributes
  exact ⟨rfl, by simpa using rest⟩

/-- Behind the first number a node has a bracket and an edge an arrow. -/
theorem edgeLine_ne_nodeLine (e : Edge) (n : Node) (u v : List Char) :
    (edgeLine e).toList ++ u ≠ (nodeLine n).toList ++ v := by
  intro same
  simp only [toList_nodeLine, toList_edgeLine, List.cons_append, List.append_assoc, List.cons.injEq,
    true_and] at same
  obtain ⟨_, same⟩ := delimited_digits trivial trivial (by simp) (head_labelled _ _) same
  simp [labelled] at same

theorem toList_draw (v : GraphView) :
    (draw v).toList = "digraph microdb \x7b\n".toList ++ (v.nodes.flatMap (fun n => (nodeLine n).toList) ++
      (v.edges.flatMap (fun e => (edgeLine e).toList) ++ ['\x7d', '\n'])) := by
  have ending : "\x7d\n".toList = ['\x7d', '\n'] := by decide
  unfold draw
  simp only [String.toList_append, String.toList_join, List.flatMap_map, List.append_assoc, ending]

theorem draw_injective {v w : GraphView} (same : draw v = draw w) : v = w := by
  have same := congrArg String.toList same
  simp only [toList_draw, List.append_cancel_left_eq] at same
  have noNode (es : List Edge) (n : Node) (u : List Char) :
      es.flatMap (fun e => (edgeLine e).toList) ++ ['\x7d', '\n'] ≠ (nodeLine n).toList ++ u := by
    cases es with
    | nil => simp [toList_nodeLine]
    | cons e es =>
        rw [List.flatMap_cons, List.append_assoc]
        exact edgeLine_ne_nodeLine e n _ u
  have noEdge (e : Edge) (u : List Char) : ['\x7d', '\n'] ≠ (edgeLine e).toList ++ u := by
    simp [toList_edgeLine]
  obtain ⟨nodes, same⟩ := delimited_nodeLine.flatMap (fun _ _ => trivial) (fun _ _ => trivial)
    (fun _ _ => trivial) ⟨trivial, fun n u _ => noNode _ n u⟩ ⟨trivial, fun n u _ => noNode _ n u⟩ same
  obtain ⟨edges, _⟩ := delimited_edgeLine.flatMap (fun _ _ => trivial) (fun _ _ => trivial)
    (fun _ _ => trivial) ⟨trivial, fun e u _ => noEdge e u⟩ ⟨trivial, fun e u _ => noEdge e u⟩ same
  obtain ⟨_, _⟩ := v
  obtain ⟨_, _⟩ := w
  cases nodes
  cases edges
  rfl

end Lines

section Quoting

/-- The inside of a quoted string: every backslash begins a pair, and no other quote occurs. -/
inductive Quoted : List Char → Prop where
  | nil : Quoted []
  | pair {c : Char} (second : c = '\\' ∨ c = '"' ∨ c = 'n') {cs : List Char} (rest : Quoted cs) :
      Quoted ('\\' :: c :: cs)
  | plain {c : Char} (single : c ≠ '\\' ∧ c ≠ '"') {cs : List Char} (rest : Quoted cs) :
      Quoted (c :: cs)

/-- A text and what stands in the strings that are quoted in it, both from the left. -/
inductive Quotes : List Char → List (List Char) → Prop where
  | nil : Quotes [] []
  | outside {c : Char} (other : c ≠ '"') {cs : List Char} {ss : List (List Char)} (rest : Quotes cs ss) :
      Quotes (c :: cs) ss
  | string {s : List Char} (quoted : Quoted s) {cs : List Char} {ss : List (List Char)}
      (rest : Quotes cs ss) : Quotes ('"' :: (s ++ '"' :: cs)) (s :: ss)

theorem Quoted.append {cs ds : List Char} (first : Quoted cs) (second : Quoted ds) :
    Quoted (cs ++ ds) := by
  induction first with
  | nil => exact second
  | pair marked _ ih => exact .pair marked ih
  | plain single _ ih => exact .plain single ih

theorem not_special_digits {id : NodeId} : ∀ c ∈ digits id, c ≠ '\\' ∧ c ≠ '"' := by
  intro c hc
  have digit := Nat.isDigit_of_mem_toDigits (by decide) (by decide) hc
  exact ⟨fun e => absurd (e ▸ digit) (by decide), fun e => absurd (e ▸ digit) (by decide)⟩

theorem Quoted.of_plain {cs : List Char} (plain : ∀ c ∈ cs, c ≠ '\\' ∧ c ≠ '"') : Quoted cs := by
  induction cs with
  | nil => exact .nil
  | cons c cs ih =>
      obtain ⟨single, others⟩ := List.forall_mem_cons.1 plain
      exact .plain single (ih others)

theorem quoted_escape (cs : List Char) : Quoted (cs.flatMap escapeChar) := by
  induction cs with
  | nil => exact .nil
  | cons c cs ih =>
      simp only [List.flatMap_cons, escapeChar, Bool.or_eq_true, decide_eq_true_eq]
      split
      · rename_i special
        exact .pair (special.elim .inl fun e => .inr (.inl e)) ih
      · rename_i plain
        exact .plain (not_or.1 plain) ih

theorem quoted_attributeLine (e : String × String) : Quoted (attributeLine e).toList := by
  rw [toList_attributeLine]
  exact (quoted_escape _).append (.plain (by decide) (.plain (by decide) (quoted_escape _)))

theorem quoted_parted (es : List (String × String)) : Quoted (es.flatMap parted) := by
  induction es with
  | nil => exact .nil
  | cons e es ih =>
      rw [List.flatMap_cons]
      exact .append (.pair (.inr (.inr rfl)) (quoted_attributeLine e)) ih

theorem quoted_nodeLabel (n : Node) : Quoted (nodeLabel n).toList := by
  rw [toList_nodeLabel]
  exact (Quoted.of_plain not_special_digits).append (quoted_parted _)

theorem quoted_edgeLabel? {a : Attributes} {s : String} (has : edgeLabel? a = some s) : Quoted s.toList := by
  have whole := quoted_parted a.toList
  rw [parted_of_edgeLabel? has] at whole
  cases whole with
  | pair _ rest => exact rest
  | plain single _ => exact absurd rfl single.1

/-- The inside of a quoted string ends at the first quote without a backslash before it. -/
theorem delimited_quoted : Delimited (fun cs => cs) Quoted fun u => ∃ v, u = '"' :: v := by
  intro cs ds u v first second ⟨u', hu⟩ ⟨v', hv⟩ same
  subst hu hv
  induction first generalizing ds with
  | nil =>
      cases second with
      | nil => exact ⟨rfl, same⟩
      | pair _ _ => simp at same
      | plain single _ => exact absurd (List.cons.inj same).1.symm single.2
  | pair _ _ ih =>
      cases second with
      | nil => simp at same
      | pair _ rest =>
          simp only [List.cons_append, List.cons.injEq, true_and] at same
          obtain ⟨rfl, later⟩ := same
          obtain ⟨rfl, behind⟩ := ih rest later
          exact ⟨rfl, behind⟩
      | plain single _ => exact absurd (List.cons.inj same).1.symm single.1
  | plain single _ ih =>
      cases second with
      | nil => exact absurd (List.cons.inj same).1 single.2
      | pair _ _ => exact absurd (List.cons.inj same).1 single.1
      | plain _ rest =>
          obtain ⟨rfl, later⟩ := List.cons.inj same
          obtain ⟨rfl, behind⟩ := ih rest later
          exact ⟨rfl, behind⟩

theorem Quotes.unique {cs : List Char} {ss ts : List (List Char)} (first : Quotes cs ss)
    (second : Quotes cs ts) : ss = ts := by
  induction first generalizing ts with
  | nil =>
      cases second
      rfl
  | outside other _ ih =>
      cases second with
      | outside _ rest => exact ih rest
      | string _ _ => exact absurd rfl other
  | string quoted _ ih =>
      generalize whole : '"' :: _ = text at second
      cases second with
      | nil => cases whole
      | outside other _ => exact absurd (List.cons.inj whole).1.symm other
      | string quoted' rest =>
          obtain ⟨rfl, behind⟩ := delimited_quoted quoted quoted' ⟨_, rfl⟩ ⟨_, rfl⟩ (List.cons.inj whole).2
          cases behind
          rw [ih rest]

theorem Quotes.append {cs ds : List Char} {ss ts : List (List Char)} (first : Quotes cs ss)
    (second : Quotes ds ts) : Quotes (cs ++ ds) (ss ++ ts) := by
  induction first with
  | nil => exact second
  | outside other _ ih => exact .outside other ih
  | string quoted _ ih =>
      rw [List.cons_append, List.append_assoc]
      exact .string quoted ih

theorem Quotes.of_not_mem {cs : List Char} (none : '"' ∉ cs) : Quotes cs [] := by
  induction cs with
  | nil => exact .nil
  | cons c cs ih =>
      rw [List.mem_cons, not_or] at none
      exact .outside (Ne.symm none.1) (ih none.2)

theorem Quotes.flatMap {α : Type} {write : α → List Char} {strings : α → List (List Char)}
    (one : ∀ a, Quotes (write a) (strings a)) (as : List α) :
    Quotes (as.flatMap write) (as.flatMap strings) := by
  induction as with
  | nil => exact .nil
  | cons a as ih => exact (one a).append ih

theorem quotes_digits (id : NodeId) : Quotes (digits id) [] :=
  .of_not_mem fun quote => (not_special_digits _ quote).2 rfl

theorem quotes_labelled {s : String} (quoted : Quoted s.toList) : Quotes (labelled s) [s.toList] :=
  (Quotes.of_not_mem (by decide)).append (.string quoted (.of_not_mem (by decide)))

theorem quotes_nodeLine (n : Node) : Quotes (nodeLine n).toList [(nodeLabel n).toList] := by
  rw [toList_nodeLine]
  refine .outside (by decide) (.outside (by decide) ((quotes_digits n.id).append ?_))
  exact (quotes_labelled (quoted_nodeLabel n)).append (.of_not_mem (by decide))

theorem quotes_edgeLine (e : Edge) :
    Quotes (edgeLine e).toList ((edgeLabel? e.attributes).toList.map String.toList) := by
  have label : Quotes (tail e.attributes) ((edgeLabel? e.attributes).toList.map String.toList) := by
    rw [tail]
    cases has : edgeLabel? e.attributes with
    | none => exact .nil
    | some s => exact quotes_labelled (quoted_edgeLabel? has)
  rw [toList_edgeLine]
  refine .outside (by decide) (.outside (by decide) ((quotes_digits e.source).append ?_))
  have arrow : Quotes [' ', '-', '>', ' '] [] := .of_not_mem (by decide)
  refine arrow.append ?_
  rw [← List.append_nil (List.map ..)]
  exact (quotes_digits e.target).append (label.append (.of_not_mem (by decide)))

/-- The labels of a drawing: one for each node, and one for each edge that has attributes. -/
def labels (v : GraphView) : List String :=
  v.nodes.map nodeLabel ++ v.edges.flatMap fun e => (edgeLabel? e.attributes).toList

theorem quotes_draw (v : GraphView) : Quotes (draw v).toList ((labels v).map String.toList) := by
  have spread : (labels v).map String.toList = v.nodes.flatMap (fun n => [(nodeLabel n).toList]) ++
      (v.edges.flatMap (fun e => (edgeLabel? e.attributes).toList.map String.toList) ++ []) := by
    simp [labels, List.map_flatMap, ← List.map_eq_flatMap, Function.comp_def]
  rw [toList_draw, spread]
  refine (Quotes.of_not_mem (by decide)).append ?_
  exact (Quotes.flatMap quotes_nodeLine _).append
    ((Quotes.flatMap quotes_edgeLine _).append (.of_not_mem (by decide)))

/-- Drawings are equal only if their views are, with every order in them; and what is quoted in a
drawing, read from the left, are its labels and nothing else. -/
theorem draw_unambiguous :
    (∀ v w : GraphView, draw v = draw w ↔ v = w) ∧
      ∀ (v : GraphView) (ss : List (List Char)),
        Quotes (draw v).toList ss ↔ ss = (labels v).map String.toList := by
  refine ⟨fun v w => ⟨draw_injective, congrArg draw⟩, fun v ss => ⟨fun read => ?_, fun same => ?_⟩⟩
  · exact read.unique (quotes_draw v)
  · exact same ▸ quotes_draw v

end Quoting

end WordGraph.Dot
