import WordGraph.Proofs.Graph.Run
import WordGraph.Proofs.Query.Reopening

/-!
What comes out of a snapshot. Bytes of any origin are refused or make a graph that is kept as well
as any other, with all identities up to the counter; saving that graph again changes nothing in it.
-/

namespace WordGraph.Snapshot

variable {pack : List UInt8 → List UInt8} {unpack : List UInt8 → Option (List UInt8)}

theorem decode_eq_ok_iff (bytes : List UInt8) (g : Graph) (counter : UInt64) :
    decodeWith unpack bytes = .ok (g, counter) ↔
      ∃ body image, checkedPayload bytes = .ok body ∧ readImage unpack body = .ok image ∧
        image.toGraph = .ok g ∧ image.counter = counter := by
  simp only [decodeWith, Except.bind_eq_ok_iff, Except.mapError_eq_ok_iff]
  constructor
  · rintro ⟨body, checked, image, read, built, parts, same⟩
    obtain ⟨rfl, rfl⟩ := Prod.mk.inj (Except.ok.inj same)
    exact ⟨body, image, checked, read, parts, rfl⟩
  · rintro ⟨body, image, checked, read, parts, same⟩
    exact ⟨body, checked, image, read, g, parts, congrArg (fun n => Except.ok (g, n)) same⟩

/-- Whatever parts a graph was put together from, it is sound and has the counter asked for. -/
theorem sound_of_decode {bytes : List UInt8} {g : Graph} {counter : UInt64}
    (h : decodeWith unpack bytes = .ok (g, counter)) : g.Sound ∧ g.counter = counter := by
  obtain ⟨body, image, _, _, parts, same⟩ := (decode_eq_ok_iff ..).1 h
  exact ⟨Graph.sound_ofParts parts, (Graph.counter_ofParts parts).trans same⟩

/-- Bytes of any origin are refused, or they are read as a graph that is kept well and comes back
the same when it is saved and read again. -/
theorem decode_trusted (packing : Packing pack unpack) (bytes : List UInt8) :
    (∃ fault, decodeWith unpack bytes = .error fault) ∨
      ∃ g counter, decodeWith unpack bytes = .ok (g, counter) ∧ g.WellKept ∧
        (∀ n ∈ g.nodes, n.id.value ≤ counter) ∧ g.counter = counter ∧
        ((Image.ofGraph g counter).write.length < 2 ^ 32 →
          ∃ h, decodeWith unpack (encodeWith pack g counter) = .ok (h, counter) ∧ h.Alike g ∧
            (Image.ofGraph h counter).write = (Image.ofGraph g counter).write) := by
  cases read : decodeWith unpack bytes with
  | error fault => exact .inl ⟨fault, rfl⟩
  | ok result =>
      obtain ⟨g, counter⟩ := result
      obtain ⟨sound, same⟩ := sound_of_decode read
      subst same
      refine .inr ⟨g, g.counter, rfl, sound.coherent.wellKept, fun n hn => ?_, rfl, fun small => ?_⟩
      · exact sound.le_counter n.id (Graph.map_id_nodes g ▸ List.mem_map_of_mem hn)
      · obtain ⟨h, again, agrees⟩ := decode_agrees packing sound small
        refine ⟨h, again, agrees.alike, ?_⟩
        simp only [Image.ofGraph, agrees.nodes_eq, agrees.edges_eq]

/-- An image with a repeated node and a repeated loop is read, and read again once saved. -/
theorem decode_trusted_repeated :
    ∃ i : Image, i.nodes.length = 3 ∧ i.edges.length = 2 ∧
      ∃ g h, decode (Header.write ⟨version, Checksum.ofBytes (Block.pack i.write),
          (Block.pack i.write).length⟩ ++ Block.pack i.write) = .ok (g, 3) ∧
        g.WellKept ∧ g.nodes.length = 2 ∧ decode (encode g 3) = .ok (h, 3) ∧ h.nodes = g.nodes := by
  let i : Image := ⟨3, [⟨⟨1⟩, ∅⟩, ⟨⟨2⟩, ∅⟩, ⟨⟨1⟩, ∅⟩], [⟨⟨1⟩, ⟨1⟩, ∅⟩, ⟨⟨1⟩, ⟨1⟩, ∅⟩]⟩
  obtain ⟨parts, built, nodes, size⟩ : ∃ g, i.toGraph = .ok g ∧ g.nodes.length = 2 ∧
      (Image.ofGraph g 3).write.length < 2 ^ 32 := ⟨_, rfl, by decide +kernel, by decide +kernel⟩
  have read := decode_image packing_block (i := i) (by decide +kernel) built
  refine ⟨i, rfl, rfl, ?_⟩
  rcases decode_trusted packing_block (Header.write ⟨version, Checksum.ofBytes (Block.pack i.write),
    (Block.pack i.write).length⟩ ++ Block.pack i.write) with
    ⟨fault, refused⟩ | ⟨g, n, accepted, kept, _, _, again⟩
  · rw [refused] at read
    cases read
  · rw [accepted] at read
    obtain ⟨rfl, rfl⟩ := Prod.mk.inj (Except.ok.inj read)
    obtain ⟨h, reread, alike, _⟩ := again size
    exact ⟨_, h, accepted, kept, nodes, reread, alike.nodes_eq⟩

end WordGraph.Snapshot
