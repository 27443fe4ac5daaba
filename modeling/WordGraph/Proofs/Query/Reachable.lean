import WordGraph.Proofs.Snapshot.Trust

/-!
The sessions that can come about: the empty one, one that is opened over a graph read from a
snapshot, and what any input makes of one of them. Where a session is also worked on directly, its
graph and its names may be changed one by one between the inputs.
-/

namespace WordGraph.Session

inductive Reachable : Session → Prop where
  | empty : Reachable ∅
  | opened {unpack : List UInt8 → Option (List UInt8)} {bytes : List UInt8} {g : Graph}
      {counter : UInt64} (read : Snapshot.decodeWith unpack bytes = .ok (g, counter)) :
      Reachable (ofGraph g)
  | fed {s : Session} (reached : Reachable s) (input : Input) : Reachable (s.feed input)

theorem Reachable.sound {s : Session} (h : Reachable s) : s.graph.Sound := by
  induction h with
  | empty => exact Graph.sound_empty
  | opened read => exact (Snapshot.sound_of_decode read).1
  | fed _ input ih => exact feed_sound ih input

/-- The sessions that inputs and direct calls can make, over any graph and with any names. -/
inductive Attainable : Session → Prop where
  | reached {s : Session} (reached : Reachable s) : Attainable s
  | made {g : Graph} (reached : g.Reached) (bindings : Bindings) : Attainable ⟨g, bindings⟩
  | fed {s : Session} (attained : Attainable s) (input : Input) : Attainable (s.feed input)
  | changed {s : Session} (attained : Attainable s) (o : Graph.Operation) :
      Attainable { s with graph := s.graph.step o }
  | bound {s : Session} (attained : Attainable s) (identifier : String) (b : Binding) :
      Attainable (s.bind identifier b)
  | removed {s : Session} (attained : Attainable s) (ids : List NodeId) :
      Attainable (s.removeNodes ids).1

theorem Attainable.sound {s : Session} (h : Attainable s) : s.graph.Sound := by
  induction h with
  | reached reached => exact reached.sound
  | made reached => exact reached.sound
  | fed _ input ih => exact feed_sound ih input
  | changed _ o ih => exact ih.step o
  | bound _ _ _ ih => exact ih
  | removed _ ids ih => exact ih.removeNodes ids

end WordGraph.Session
