import WordGraph.Proofs.OrderedMap
import WordGraph.Proofs.Snapshot.Block
import WordGraph.Snapshot.Image

/-!
Reading the image of a graph gives back the parts from which it was written, with the attributes in
their order. A length takes eight bytes, so this holds of images that are shorter than what eight
bytes can count.
-/

namespace WordGraph

theorem Attributes.ofList_toList (a : Attributes) : Attributes.ofList a.toList = .ok a := by
  have key (es : List (String × String)) :
      ∀ acc : Attributes, (∀ e ∈ es, admissible e.1 = true ∧ admissible e.2 = true) →
        ∃ b : Attributes, es.foldlM (fun a p => a.insert p.1 p.2) acc = .ok b ∧
          b.table = es.foldl (fun m e => m.insert e.1 e.2) acc.table := by
    induction es with
    | nil => exact fun acc _ => ⟨acc, rfl, rfl⟩
    | cons e es ih =>
        intro acc plain
        obtain ⟨hk, hv⟩ := plain e (List.mem_cons_self ..)
        have first := (Attributes.insert_eq_ok_iff acc _ e.1 e.2).2 ⟨hk, hv, rfl⟩
        obtain ⟨b, done, table⟩ := ih (acc.put e.1 e.2 hk hv) fun x hx => plain x (List.mem_cons_of_mem _ hx)
        refine ⟨b, ?_, table⟩
        rw [List.foldlM_cons, first]
        exact done
  obtain ⟨b, done, table⟩ := key a.toList ∅ a.admissible_entries
  have same : b = a := Attributes.ext_table (table.trans (OrderedMap.ofList_entries a.table))
  exact same ▸ done

namespace Image

variable {α : Type}

/-- Says that the reader takes exactly these bytes, whatever follows them, and makes `x` of them. -/
def Reads (read : Reader α) (x : α) (bytes : List UInt8) : Prop :=
  ∀ rest, read (bytes ++ rest) = .ok (x, rest)

/-- Says that what is written is read back, if it is not too long for its length to be written. -/
def ReadsBack (read : Reader α) (write : α → List UInt8) : Prop :=
  ∀ x, (write x).length < 2 ^ 64 → Reads read x (write x)

theorem length_word (n : Nat) : (word n).length = 8 := Block.length_littleEndian 8 n

theorem reads_bytes (bytes : List UInt8) : Reads (readBytes bytes.length) bytes bytes := by
  intro rest
  rw [readBytes, Block.take?_append rfl]

theorem reads_word {n : Nat} (h : n < 2 ^ 64) : Reads readWord n (word n) := by
  intro rest
  have field : readBytes 8 (word n ++ rest) = .ok (word n, rest) := by
    have := reads_bytes (word n) rest
    rwa [length_word] at this
  have value : Block.ofLittleEndian (word n) = n := Block.ofLittleEndian_littleEndian h
  simp only [readWord, field, value, Except.bind, bind, pure, Except.pure]

theorem readsBack_text : ReadsBack readText text := by
  intro s small rest
  simp only [text, List.length_append, length_word] at small
  have length := reads_word (n := (Text.Utf8.encode s).length) (by omega)
  have field := reads_bytes (Text.Utf8.encode s)
  simp only [readText, text, List.append_assoc, length _, field _, Except.bind, bind, pure, Except.pure,
    Text.Utf8.decode?_encode]

theorem reads_many {item : Reader α} {write : α → List UInt8} {xs : List α}
    (h : ∀ x ∈ xs, Reads item x (write x)) : Reads (readMany item xs.length) xs (xs.flatMap write) := by
  induction xs with
  | nil => exact fun rest => rfl
  | cons x xs ih =>
      intro rest
      have first := h x (List.mem_cons_self ..)
      have others := ih fun y hy => h y (List.mem_cons_of_mem _ hy)
      simp only [List.length_cons, readMany, List.flatMap_cons, List.append_assoc, first _, others _,
        Except.bind, bind, pure, Except.pure]

theorem length_item_le (write : α → List UInt8) {xs : List α} {x : α} (hx : x ∈ xs) :
    (write x).length ≤ (xs.flatMap write).length := by
  obtain ⟨before, after, rfl⟩ := List.append_of_mem hx
  simp only [List.flatMap_append, List.flatMap_cons, List.length_append]
  omega

theorem length_le_flatMap {write : α → List UInt8} (some : ∀ x, 0 < (write x).length) (xs : List α) :
    xs.length ≤ (xs.flatMap write).length := by
  induction xs with
  | nil => exact Nat.le_refl _
  | cons x xs ih =>
      have := some x
      rw [List.flatMap_cons, List.length_cons, List.length_append]
      omega

theorem ReadsBack.list {item : Reader α} {write : α → List UInt8} (h : ReadsBack item write)
    (some : ∀ x, 0 < (write x).length) : ReadsBack (readList item) (list write) := by
  intro xs small rest
  simp only [Image.list, List.length_append, length_word] at small
  have count := length_le_flatMap some xs
  have length := reads_word (n := xs.length) (by omega)
  have items : Reads (readMany item xs.length) xs (xs.flatMap write) := by
    refine reads_many fun x hx => h x ?_
    have := length_item_le write hx
    omega
  simp only [readList, Image.list, List.append_assoc, length _, Except.bind, bind]
  exact items rest

theorem length_text_pos (s : String) : 0 < (text s).length := by
  rw [text, List.length_append, length_word]
  omega

theorem readsBack_pair : ReadsBack readPair fun e => text e.1 ++ text e.2 := by
  intro e small rest
  rw [List.length_append] at small
  have key := readsBack_text e.1 (by omega)
  have value := readsBack_text e.2 (by omega)
  simp only [readPair, List.append_assoc, key _, value _, Except.bind, bind, pure, Except.pure]

theorem readsBack_attributes : ReadsBack readAttributes attributes := by
  intro a small rest
  have pairs : Reads (readList readPair) a.toList (attributes a) :=
    readsBack_pair.list (fun e => by
      have := length_text_pos e.1
      rw [List.length_append]
      omega) a.toList small
  have kept : (OrderedMap.ofList a.toList).entries = a.toList :=
    congrArg OrderedMap.entries (OrderedMap.ofList_entries a.table)
  simp only [readAttributes, pairs _, kept, Attributes.ofList_toList, Except.bind, bind, pure,
    Except.pure]

theorem reads_id (id : NodeId) : Reads readWord id.toNat (word id.toNat) := reads_word id.value.toNat_lt

theorem ofNat_toNat (id : NodeId) : NodeId.ofNat id.toNat = id :=
  congrArg NodeId.mk (UInt64.ofNat_toNat)

theorem readsBack_node : ReadsBack readNode node := by
  intro n small rest
  rw [node, List.length_append] at small
  have attributes := readsBack_attributes n.attributes (by omega)
  simp only [readNode, node, List.append_assoc, reads_id n.id _, attributes _, ofNat_toNat, Except.bind,
    bind, pure, Except.pure]

theorem readsBack_edge : ReadsBack readEdge edge := by
  intro e small rest
  simp only [edge, List.length_append] at small
  have attributes := readsBack_attributes e.attributes (by omega)
  simp only [readEdge, edge, List.append_assoc, reads_id e.source _, reads_id e.target _, attributes _,
    ofNat_toNat, Except.bind, bind, pure, Except.pure]

theorem readsBack_write : ReadsBack read write := by
  intro i small rest
  simp only [write, List.length_append] at small
  have counter : Reads readWord i.counter.toNat (word i.counter.toNat) := reads_word i.counter.toNat_lt
  have nodes := readsBack_node.list (fun n => by
    rw [node, List.length_append, length_word]
    omega) i.nodes (by omega)
  have edges := readsBack_edge.list (fun e => by
    simp only [edge, List.length_append, length_word]
    omega) i.edges (by omega)
  simp only [read, write, List.append_assoc, counter _, nodes _, edges _, Except.bind, bind, pure,
    Except.pure]
  rw [show UInt64.ofNat i.counter.toNat = i.counter from UInt64.ofNat_toNat]

end Image
end WordGraph
