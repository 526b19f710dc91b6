import VectorGuard.Core.Tetragon

/-!
# Stream Order

In which order the Tetragon adapter hands its stream on.

A connection fills the buffer at its end and nothing is taken out before the
connection is over, so what the calls of `next_event` then return is the
connection read backwards: nothing is lost or doubled, but the order of the
stream survives only where a connection delivered a single event. Identifiers
are given out as the responses arrive, which makes a reversal visible in every
longer connection (`converted_ne_reverse`).

## Main definitions

* `Response.converts`: The response carries an event that is converted.
* `converted`: The events of some responses, in the order of arrival.
* `arrived`: The events of all connections, in the order of arrival.
* `delivered`: The events of all connections, each read backwards.

## Theorems

* `received_eq_take`: What the calls return.
* `converted_ne_reverse`: Two events of one connection change places.
* `inOrder_iff`: When the calls return the stream in order.
-/

namespace VectorGuard

/-- The response is of a kind that is converted and names a process. -/
def Response.converts (resp : Response) : Bool :=
  match resp.event with
  | some (.processExec (some _) _) => true
  | some (.processExit (some _) _) => true
  | some (.processKprobe (some _) _ _ _) => true
  | some (.processTracepoint (some _) _ _ _) => true
  | _ => false

section Stream

variable (parseIp : String → Option IpAddr)

/-- The events of some responses, with identifiers from the given one on. -/
def converted (id : UInt64) : List Response → List SourceEvent
  | [] => []
  | resp :: rest => match convertResponse parseIp id resp with
    | some ev => ev :: converted (id + 1) rest
    | none => converted id rest

/-- The events of a stream in the order of arrival. -/
def arrived (id : UInt64) (conns : List Connection) : List SourceEvent :=
  converted parseIp id (conns.flatMap Connection.responses)

/-- The counter after some responses. -/
def idAfter (id : UInt64) (responses : List Response) : UInt64 :=
  id + UInt64.ofNat (converted parseIp id responses).length

/-- The events of a stream, every connection read backwards. -/
def delivered (id : UInt64) : List Connection → List SourceEvent
  | [] => []
  | c :: rest =>
    (converted parseIp id c.responses).reverse ++ delivered (idAfter parseIp id c.responses) rest

/-! ## Conversion -/

theorem convertResponse_isSome (id : UInt64) (resp : Response) :
    (convertResponse parseIp id resp).isSome = resp.converts := by
  rcases resp with ⟨event⟩
  cases event with
  | none =>
      rfl
  | some event =>
      cases event with
      | processExec process parent =>
          cases process <;> rfl
      | processExit process parent =>
          cases process <;> rfl
      | processKprobe process parent name args =>
          cases process <;> rfl
      | processTracepoint process parent subsys event =>
          cases process <;> rfl
      | processLoader =>
          rfl
      | processUprobe =>
          rfl

theorem convertResponse_id (id : UInt64) (resp : Response) (ev : SourceEvent)
    (h : convertResponse parseIp id resp = some ev) : ev.id = id := by
  unfold convertResponse convertExec convertExit convertKprobe convertTracepoint at h
  split at h <;> simp only [reduceCtorEq, Option.map_eq_some_iff] at h
  all_goals
    rcases h with ⟨_, _, rfl⟩
    rfl

theorem length_converted (id : UInt64) (responses : List Response) :
    (converted parseIp id responses).length = (responses.filter Response.converts).length := by
  induction responses generalizing id with
  | nil =>
      rfl
  | cons resp rest ih =>
      have hsome := convertResponse_isSome parseIp id resp
      unfold converted
      cases hresp : convertResponse parseIp id resp with
      | none =>
          rw [hresp] at hsome
          simp only [List.filter_cons, ← hsome, Option.isSome_none, Bool.false_eq_true, if_false]
          exact ih id
      | some ev =>
          rw [hresp] at hsome
          simp only [List.filter_cons, ← hsome, Option.isSome_some, if_true, List.length_cons]
          rw [ih (id + 1)]

theorem idAfter_nil (id : UInt64) : idAfter parseIp id [] = id :=
  UInt64.add_zero id

theorem idAfter_cons (id : UInt64) (resp : Response) (rest : List Response) :
    idAfter parseIp id (resp :: rest) = match convertResponse parseIp id resp with
      | some _ => idAfter parseIp (id + 1) rest
      | none => idAfter parseIp id rest := by
  unfold idAfter
  rw [converted]
  cases convertResponse parseIp id resp with
  | none =>
      rfl
  | some ev =>
      simp only [List.length_cons, UInt64.ofNat_add, UInt64.ofNat_one]
      ac_rfl

theorem converted_append (id : UInt64) (responses responses' : List Response) :
    converted parseIp id (responses ++ responses')
      = converted parseIp id responses
        ++ converted parseIp (idAfter parseIp id responses) responses' := by
  induction responses generalizing id with
  | nil =>
      rw [idAfter_nil, converted, List.nil_append, List.nil_append]
  | cons resp rest ih =>
      rw [List.cons_append, converted, converted, idAfter_cons]
      cases convertResponse parseIp id resp with
      | none =>
          exact ih id
      | some ev =>
          simp only [List.cons_append, ih (id + 1)]

/-- Identifiers are given out in the order of arrival. -/
theorem id_of_getElem?_converted (id : UInt64) (responses : List Response) (k : Nat)
    (ev : SourceEvent) (h : (converted parseIp id responses)[k]? = some ev) :
    ev.id = id + UInt64.ofNat k := by
  induction responses generalizing id k with
  | nil =>
      exact absurd h (by simp only [converted, List.getElem?_nil, reduceCtorEq, not_false_eq_true])
  | cons resp rest ih =>
      rw [converted] at h
      cases hresp : convertResponse parseIp id resp with
      | none =>
          rw [hresp] at h
          exact ih id k h
      | some ev' =>
          rw [hresp] at h
          cases k with
          | zero =>
              rw [List.getElem?_cons_zero, Option.some.injEq] at h
              rw [← h, convertResponse_id parseIp id resp ev' hresp]
              exact (UInt64.add_zero id).symm
          | succ k =>
              rw [List.getElem?_cons_succ] at h
              rw [ih (id + 1) k h, UInt64.ofNat_add, UInt64.ofNat_one]
              ac_rfl

/-- A connection with two events reads differently backwards: the first and the
    second identifier cannot both equal their mirror images. -/
theorem converted_ne_reverse (id : UInt64) (responses : List Response)
    (h : 2 ≤ (converted parseIp id responses).length) :
    (converted parseIp id responses).reverse ≠ converted parseIp id responses := by
  intro heq
  have hmirror : ∀ k (hk : k < (converted parseIp id responses).length),
      id + UInt64.ofNat ((converted parseIp id responses).length - 1 - k)
        = id + UInt64.ofNat k := by
    intro k hk
    have hget := List.getElem?_eq_getElem hk
    have hmirrored := List.getElem?_reverse hk
    rw [heq, hget] at hmirrored
    rw [← id_of_getElem?_converted parseIp id responses k _ hget]
    exact (id_of_getElem?_converted parseIp id responses _ _ hmirrored.symm).symm
  generalize (converted parseIp id responses).length = len at h hmirror
  have hfirst := hmirror 0 (by omega)
  have hsecond := hmirror 1 (by omega)
  rw [UInt64.add_right_inj] at hfirst hsecond
  -- The mirror images differ by one, so the identifiers would be 0 and 2.
  have hlen : len - 1 - 0 = (len - 1 - 1) + 1 := by omega
  rw [hlen, UInt64.ofNat_add, hsecond] at hfirst
  exact absurd hfirst (by decide)

/-! ## Calls -/

theorem foldl_push (a : TetragonAdapter) (responses : List Response) :
    responses.foldl (TetragonAdapter.push parseIp) a
      = { buffer := a.buffer ++ converted parseIp a.nextId responses
          nextId := idAfter parseIp a.nextId responses } := by
  induction responses generalizing a with
  | nil =>
      rw [List.foldl_nil, idAfter_nil, converted, List.append_nil]
  | cons resp rest ih =>
      rw [List.foldl_cons, ih, converted, idAfter_cons]
      unfold TetragonAdapter.push
      cases convertResponse parseIp a.nextId resp with
      | none =>
          rfl
      | some ev =>
          simp only [List.append_assoc, List.singleton_append]

/-- What is still to be returned: the buffer backwards, then the connections. -/
def outstanding (a : TetragonAdapter) (conns : List Connection) : List SourceEvent :=
  a.buffer.reverse ++ delivered parseIp a.nextId conns

theorem outstanding_concat (a : TetragonAdapter) (conns : List Connection)
    (init : List SourceEvent) (ev : SourceEvent) (h : a.buffer = init ++ [ev]) :
    outstanding parseIp a conns
      = ev :: outstanding parseIp { a with buffer := a.buffer.dropLast } conns := by
  unfold outstanding
  rw [h, List.reverse_append, List.reverse_singleton, List.singleton_append, List.cons_append,
    List.dropLast_concat]

/-- A call returns the first outstanding event and leaves the others. -/
theorem nextEvent_outstanding (a : TetragonAdapter) (conns : List Connection) :
    match a.nextEvent parseIp conns with
    | some (ev, a', conns') => outstanding parseIp a conns = ev :: outstanding parseIp a' conns'
    | none => outstanding parseIp a conns = [] := by
  -- By induction on the connections, which a call goes through until it has filled
  -- the buffer.
  induction conns generalizing a with
  | nil =>
      unfold TetragonAdapter.nextEvent
      rcases List.eq_nil_or_concat' a.buffer with hbuf | ⟨init, ev, hbuf⟩
      · simp only [hbuf, List.getLast?_nil, outstanding, List.reverse_nil, delivered,
          List.append_nil]
      · simp only [hbuf, List.getLast?_concat]
        rw [← hbuf]
        exact outstanding_concat parseIp a [] init ev hbuf
  | cons c rest ih =>
      unfold TetragonAdapter.nextEvent
      rcases List.eq_nil_or_concat' a.buffer with hbuf | ⟨init, ev, hbuf⟩
      · simp only [hbuf, List.getLast?_nil]
        have hnext := ih (a.connectAndStream parseIp c).1
        -- Connecting moves the connection into the buffer and changes nothing else.
        have hsame : outstanding parseIp (a.connectAndStream parseIp c).1 rest
            = outstanding parseIp a (c :: rest) := by
          unfold outstanding TetragonAdapter.connectAndStream
          rw [foldl_push, hbuf]
          simp only [List.nil_append, List.reverse_nil, delivered]
        rw [hsame] at hnext
        exact hnext
      · simp only [hbuf, List.getLast?_concat]
        rw [← hbuf]
        exact outstanding_concat parseIp a (c :: rest) init ev hbuf

/-- The calls return what is outstanding, in that order. -/
theorem received_eq_take (a : TetragonAdapter) (conns : List Connection) (n : Nat) :
    a.received parseIp conns n = (outstanding parseIp a conns).take n := by
  induction n generalizing a conns with
  | zero =>
      rw [TetragonAdapter.received, List.take_zero]
  | succ n ih =>
      have hnext := nextEvent_outstanding parseIp a conns
      rw [TetragonAdapter.received]
      cases hcall : a.nextEvent parseIp conns with
      | none =>
          rw [hcall] at hnext
          simp only [] at hnext ⊢
          rw [hnext, List.take_nil]
      | some res =>
          rcases res with ⟨ev, a', conns'⟩
          rw [hcall] at hnext
          simp only [] at hnext ⊢
          rw [hnext, List.take_succ_cons, ih]

/-- Reading every connection backwards gives the stream exactly when no
    connection delivers two events. -/
theorem delivered_eq_arrived_iff (id : UInt64) (conns : List Connection) :
    delivered parseIp id conns = arrived parseIp id conns ↔
      ∀ c ∈ conns, (c.responses.filter Response.converts).length ≤ 1 := by
  induction conns generalizing id with
  | nil =>
      simp only [delivered, arrived, List.flatMap_nil, converted, List.not_mem_nil, false_imp_iff,
        implies_true]
  | cons c rest ih =>
      rw [List.forall_mem_cons, ← ih (idAfter parseIp id c.responses),
        ← length_converted parseIp id]
      unfold arrived
      rw [List.flatMap_cons, converted_append, delivered]
      constructor
      · -- A connection and its mirror image are of one length, so the lists agree
        -- connection by connection.
        intro h
        have hparts := List.append_inj h List.length_reverse
        refine ⟨?_, hparts.2⟩
        by_contra hlong
        exact converted_ne_reverse parseIp id c.responses (by omega) hparts.1
      · intro h
        rcases h with ⟨hshort, hrest⟩
        have hself : (converted parseIp id c.responses).reverse
            = converted parseIp id c.responses := by
          cases hconv : converted parseIp id c.responses with
          | nil =>
              rfl
          | cons ev evs =>
              rw [hconv, List.length_cons] at hshort
              rw [List.length_eq_zero_iff.mp (by omega : evs.length = 0)]
              rfl
        rw [hself, hrest]

/-- The calls of `next_event` return the stream in order, however many are made,
    exactly when no connection delivers two events. -/
theorem inOrder_iff (id : UInt64) (conns : List Connection) :
    (∀ n, (TetragonAdapter.new id).received parseIp conns n
        = (arrived parseIp id conns).take n) ↔
      ∀ c ∈ conns, (c.responses.filter Response.converts).length ≤ 1 := by
  have hreceived : ∀ n, (TetragonAdapter.new id).received parseIp conns n
      = (delivered parseIp id conns).take n := by
    intro n
    rw [received_eq_take]
    rfl
  simp only [hreceived]
  rw [← delivered_eq_arrived_iff parseIp id conns]
  constructor
  · -- Enough calls return everything there is.
    intro h
    have hall := h (max (delivered parseIp id conns).length (arrived parseIp id conns).length)
    rw [List.take_of_length_le (Nat.le_max_left _ _),
      List.take_of_length_le (Nat.le_max_right _ _)] at hall
    exact hall
  · intro h n
    rw [h]

end Stream

/-- The exec of a program by a process of root. -/
def execResponse (binary : String) : Response :=
  ⟨some (.processExec (some ⟨some 7, some 0, "/", binary, "", none⟩) none)⟩

/-- A connection that delivers two execs. -/
def twoExecs : Connection := ⟨[execResponse "/usr/bin/curl", execResponse "/bin/sh"], false⟩

/-- The second exec of a connection is returned before the first. -/
theorem twoExecs_reversed :
    ((TetragonAdapter.new 0).received (fun _ => none) [twoExecs] 2).map (fun ev => ev.process.binary)
        = ["/bin/sh", "/usr/bin/curl"] ∧
      (arrived (fun _ => none) 0 [twoExecs]).map (fun ev => ev.process.binary)
        = ["/usr/bin/curl", "/bin/sh"] := by
  decide

end VectorGuard
