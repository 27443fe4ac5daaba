import WordGraph.Proofs.Catalog
import WordGraph.Proofs.Graph.Soundness
import WordGraph.Proofs.Snapshot.Image
import WordGraph.Snapshot.File

/-!
Snapshots read back. Whatever packs the image, as long as it is unpacked to what it was, decoding a
snapshot builds the graph from the nodes, the edges and the counter that were encoded; those of a
sound graph always make a graph again, with equal tables.
-/

namespace WordGraph

namespace Snapshot

/-- What is asked of the packing and the unpacking of images: that an image whose size can be written
in four bytes is unpacked to what it was, and that the size of a packed one can be written in
eight. Of bytes that were not packed nothing is asked. -/
structure Packing (pack : List UInt8 → List UInt8) (unpack : List UInt8 → Option (List UInt8)) :
    Prop where
  unpack_pack : ∀ raw, raw.length < 2 ^ 32 → unpack (pack raw) = some raw
  length_pack : ∀ raw, raw.length < 2 ^ 32 → (pack raw).length < 2 ^ 64

theorem packing_block : Packing Block.pack Block.unpack? where
  unpack_pack _ small := Block.unpack?_pack small
  length_pack raw small := by
    simp only [Block.pack, List.length_append, Block.length_littleEndian]
    split
    · rw [List.length_singleton]
      omega
    · simp only [Block.extension, List.length_cons, List.length_append, List.length_replicate,
        List.length_nil]
      omega

theorem length_write (h : Header) : h.write.length = headerSize := by
  simp only [Header.write, List.length_append, Block.length_littleEndian]
  rfl

theorem take_drop_append {before field after : List UInt8} {start width : Nat}
    (hs : before.length = start) (hw : field.length = width) :
    ((before ++ (field ++ after)).drop start).take width = field := by
  subst hs hw
  rw [List.drop_left, List.take_left]

theorem read_write (h : Header) (body : List UInt8) (known : h.version = version)
    (fits : h.length < 2 ^ 64) : Header.read (h.write ++ body) = .ok (h, body) := by
  have version_field : ((h.write ++ body).drop 4).take 2 = Block.littleEndian 2 h.version := by
    simp only [Header.write, List.append_assoc]
    exact take_drop_append rfl (Block.length_littleEndian 2 _)
  have checksum_field :
      ((h.write ++ body).drop 6).take 4 = Block.littleEndian 4 h.checksum.toNat := by
    simp only [Header.write, List.append_assoc]
    rw [← List.append_assoc mark]
    refine take_drop_append ?_ (Block.length_littleEndian 4 _)
    rw [List.length_append, Block.length_littleEndian]
    rfl
  have length_field : ((h.write ++ body).drop 10).take 8 = Block.littleEndian 8 h.length := by
    simp only [Header.write, List.append_assoc]
    rw [← List.append_assoc mark, ← List.append_assoc (mark ++ _)]
    refine take_drop_append ?_ (Block.length_littleEndian 8 _)
    simp only [List.length_append, Block.length_littleEndian]
    rfl
  have mark_field : (h.write ++ body).take 4 = mark := by
    simp only [Header.write, List.append_assoc]
    exact List.take_left' rfl
  have size : ((h.write ++ body).take headerSize).length = headerSize := by
    rw [List.take_left' (length_write h), length_write]
  have rest : (h.write ++ body).drop headerSize = body := List.drop_left' (length_write h)
  have version_value : Block.ofLittleEndian (Block.littleEndian 2 h.version) = version := by
    rw [known]
    exact Block.ofLittleEndian_littleEndian (by decide)
  have checksum_value : Block.ofLittleEndian (Block.littleEndian 4 h.checksum.toNat) =
      h.checksum.toNat := Block.ofLittleEndian_littleEndian h.checksum.toNat_lt
  have length_value : Block.ofLittleEndian (Block.littleEndian 8 h.length) = h.length :=
    Block.ofLittleEndian_littleEndian fits
  simp only [Header.read, size, mark_field, version_field, checksum_field, length_field, rest,
    version_value, checksum_value, length_value, UInt32.ofNat_toNat, Nat.lt_irrefl, if_false, ne_eq,
    not_true_eq_false]
  rw [← known]

theorem checkedPayload_append (body : List UInt8) (fits : body.length < 2 ^ 64) :
    checkedPayload (Header.write ⟨version, Checksum.ofBytes body, body.length⟩ ++ body) = .ok body := by
  rw [checkedPayload, read_write ⟨version, Checksum.ofBytes body, body.length⟩ body rfl fits]
  simp [bind, Except.bind, pure, Except.pure]

section Packed

variable {pack : List UInt8 → List UInt8} {unpack : List UInt8 → Option (List UInt8)}

/-- The image of a snapshot decides what is read, whether or not it is the image of a graph. -/
theorem decode_image (packing : Packing pack unpack) {i : Image} {h : Graph}
    (small : i.write.length < 2 ^ 32) (built : i.toGraph = .ok h) :
    decodeWith unpack (Header.write ⟨version, Checksum.ofBytes (pack i.write), (pack i.write).length⟩ ++
      pack i.write) = .ok (h, i.counter) := by
  have checked := checkedPayload_append (pack i.write) (packing.length_pack _ small)
  have image : Image.read i.write = .ok (i, []) := by
    have := Image.readsBack_write i (by omega) []
    rwa [List.append_nil] at this
  have parts : readImage unpack (pack i.write) = .ok i := by
    simp only [readImage, packing.unpack_pack _ small, image]
    rfl
  simp only [decodeWith, checked, parts, built, Except.bind, bind, pure, Except.pure, Except.mapError]

theorem decode_encodeWith (packing : Packing pack unpack) {g h : Graph} {counter : UInt64}
    (small : (Image.ofGraph g counter).write.length < 2 ^ 32)
    (built : Graph.ofParts g.nodes g.edges counter = .ok h) :
    decodeWith unpack (encodeWith pack g counter) = .ok (h, counter) :=
  decode_image packing (i := Image.ofGraph g counter) small built

end Packed

end Snapshot

namespace Graph

theorem foldlM_restoreNode (counter : UInt64) (ns : List Node) (g : Graph)
    (below : ∀ n ∈ ns, n.id.value ≤ counter) :
    ns.foldlM (restoreNode counter) g = .ok { g with nodeTable := g.nodeTable.putAll ns } := by
  induction ns generalizing g with
  | nil => rfl
  | cons n ns ih =>
      have fits : ¬ counter < n.id.value := UInt64.not_lt.2 (below n (List.mem_cons_self ..))
      have first : restoreNode counter g n =
          .ok { g with nodeTable := g.nodeTable.insert n.id n rfl } := if_neg fits
      rw [List.foldlM_cons, first]
      exact ih _ fun m hm => below m (List.mem_cons_of_mem _ hm)

theorem foldlM_addEdge (es : List Edge) (g : Graph)
    (anchored : ∀ e ∈ es, e.source ∈ g.nodeTable.keys ∧ e.target ∈ g.nodeTable.keys) :
    es.foldlM (fun g e => g.addEdge e.source e.target e.attributes) g =
      .ok { g with
        edgeTable := g.edgeTable.putAll es
        adjacency := es.foldl (fun a e => a.link e.source e.target) g.adjacency } := by
  induction es generalizing g with
  | nil => rfl
  | cons e es ih =>
      have ends := anchored e (List.mem_cons_self ..)
      have first := (addEdge_eq_ok_iff g _ e.source e.target e.attributes).2 ⟨ends, rfl⟩
      rw [List.foldlM_cons, first]
      exact ih _ fun f hf => anchored f (List.mem_cons_of_mem _ hf)

/-- The parts of a sound graph make a graph with the same tables and the same counter. -/
theorem Sound.ofParts {g : Graph} (h : g.Sound) :
    ∃ built, Graph.ofParts g.nodes g.edges g.counter = .ok built ∧ built.nodeTable = g.nodeTable ∧
      built.edgeTable = g.edgeTable ∧ built.counter = g.counter := by
  have below : ∀ n ∈ g.nodes, n.id.value ≤ g.counter := fun n hn =>
    h.le_counter n.id (map_id_nodes g ▸ List.mem_map_of_mem hn)
  have withNodes := foldlM_restoreNode g.counter g.nodes ∅ below
  have withEdges := foldlM_addEdge g.edges { (∅ : Graph) with nodeTable := g.nodeTable } fun e he =>
    ⟨h.coherent.source_mem e he, h.coherent.target_mem e he⟩
  have nodes : (∅ : Graph).nodeTable.putAll g.nodes = g.nodeTable := g.nodeTable.putAll_values
  have edges : (∅ : Graph).edgeTable.putAll g.edges = g.edgeTable := g.edgeTable.putAll_values
  rw [nodes] at withNodes
  rw [edges] at withEdges
  exact ⟨_, (ofParts_eq_ok_iff ..).2 ⟨_, _, withNodes, withEdges, rfl⟩, rfl, rfl, rfl⟩

end Graph
end WordGraph
