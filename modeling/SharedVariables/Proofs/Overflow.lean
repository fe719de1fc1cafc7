import SharedVariables.Proofs.RoundTrip
import SharedVariables.Proofs.Sending

/-! A processor that makes the same offer again and again. Every offer is recorded, and all of them
are listed in one reply. -/
namespace SharedVariables

theorem Table.oldestIn_eq_none {p : Record → Bool} {rs : List Record}
    (without : ∀ r ∈ rs, p r = false) :
    oldestIn p rs = none := by
  induction rs with
  | nil => rfl
  | cons r rest ih =>
    simp only [oldestIn, without r List.mem_cons_self, Bool.false_eq_true, if_false]
    exact ih fun s mem => without s (List.mem_cons_of_mem _ mem)

theorem utf8ByteSize_ofList_replicate (n : Nat) (c : Char) :
    (String.ofList (List.replicate n c)).utf8ByteSize = n * c.utf8Size := by
  induction n with
  | zero => simp
  | succ n ih =>
    simp only [List.replicate_succ, String.ofList_cons, String.utf8ByteSize_append,
      String.utf8ByteSize_singleton, ih,
      Nat.succ_mul]
    exact Nat.add_comm _ _

theorem totalSize_replicate (n : Nat) (word : String) :
    Text.totalSize (List.replicate n word) = n * word.utf8ByteSize := by
  induction n with
  | zero => simp [Text.totalSize]
  | succ n ih =>
    rw [Text.totalSize] at ih
    rw [Text.totalSize, List.replicate_succ, List.foldr_cons, ih, Nat.succ_mul]
    exact Nat.add_comm _ _

namespace Broker

/-- The variables are so many offers of one name to anyone, all made by one processor over one
connection. -/
structure Offering (b : Broker) (conn : ConnId) (id : Identity) (name : Name) (n : Nat) : Prop where
  acts : b.caller conn = .ok id
  unbounded : b.table.capacity = none
  sequence : b.table.sequence = n
  length : b.table.records.length = n
  offers : ∀ r ∈ b.table.records,
    r.name = name ∧ r.offering.id = id ∧ r.isPending = true ∧ r.accepting.id = .general

variable {b : Broker} {conn : ConnId} {id : Identity} {name : Name} {n : Nat}

theorem Offering.step (offering : b.Offering conn id name n) (particular : id.isGeneral = false)
    (room : n < Key.sequenceLimit) :
    (b.step (.request conn (.matchOrMake name.text .general id))).1.Offering conn
      id name (n + 1) := by
  have unmatched : b.table.pendingOffer? name .general id = none := by
    apply Table.oldestIn_eq_none
    intro r mem
    simp [Record.fits, (offering.offers r mem).2.1]
  have number : b.table.nextNumber id.proc = n := by
    have proc : id.proc ≠ 0 := by
      simpa [Identity.isGeneral, Identity.generalNumber] using particular
    simp [Table.nextNumber, proc, offering.sequence]
  have made : b.table.createOffer name .general id conn =
    (some (b.table.newOffer name .general id conn).key,
      { b.table with
        records := b.table.records ++ [b.table.newOffer name .general id conn]
        sequence := n + 1
        serial := b.table.serial + 1 }) := by
    have sized : ¬ Key.sequenceLimit ≤ n := Nat.not_le.mpr room
    simp [Table.createOffer_eq, Table.isFull, offering.unbounded, number, sized]
  simp only [Broker.step, dispatch_broker, handle, matchOrMake, offering.acts, ne_eq,
    not_true_eq_false, if_false,
    Name.ofText_text, Table.matchOrMake, unmatched, made]
  refine ⟨offering.acts, offering.unbounded, rfl, ?_, ?_⟩
  · simp [offering.length]
  · intro r mem
    rcases List.mem_append.mp mem with old | new
    · exact offering.offers r old
    · obtain rfl := List.mem_singleton.mp new
      exact ⟨rfl, rfl, rfl, rfl⟩

theorem Offering.run (offering : b.Offering conn id name n) (particular : id.isGeneral = false)
    {more : Nat} (room : n + more ≤ Key.sequenceLimit) :
    (b.run (List.replicate more (.request conn (.matchOrMake name.text .general id)))).1.Offering
      conn id name (n + more) := by
  induction more generalizing b n with
  | zero => exact offering
  | succ more ih =>
    rw [List.replicate_succ, show n + (more + 1) = n + 1 + more by omega]
    exact ih (offering.step particular (by omega)) (by omega)

theorem Offering.offeredVariables (offering : b.Offering conn id name n) (target : Identity) :
    b.table.offeredVariables target id = List.replicate n name := by
  have all : (b.table.byAge.filter fun r =>
    r.isOpenTo target.proc && r.offering.id.proc == id.proc) =
      b.table.byAge := by
    apply List.filter_eq_self.mpr
    intro r mem
    obtain ⟨-, own, pending, general⟩ := offering.offers r (List.mem_mergeSort.mp mem)
    have anyone : Identity.general.isGeneral = true := rfl
    simp [Record.isOpenTo, own, pending, general, anyone]
  rw [Table.offeredVariables, all, List.eq_replicate_iff]
  constructor
  · simp [Table.byAge, offering.length]
  · intro listed mem
    obtain ⟨r, old, rfl⟩ := List.mem_map.mp mem
    exact (offering.offers r (List.mem_mergeSort.mp old)).1

/-- All the offers are listed in one reply. -/
theorem Offering.posts (offering : b.Offering conn id name n) (target : Identity) :
    (b.step (.request conn (.getOfferedVars target id))).2 =
      [.deliver conn (.offeredVarsAre (List.replicate n name.text))] := by
  obtain ⟨e, live, -⟩ := Roster.identityOf?_eq_some.mp (caller_ok offering.acts)
  simp [Broker.step, dispatch, handle, answer, settle, send, offering.offeredVariables, live]

theorem Offering.overflowsOn_iff (offering : b.Offering conn id name n) (target : Identity) :
    b.OverflowsOn (.request conn (.getOfferedVars target id)) ↔
      Limits.stringField < n * name.text.utf8ByteSize + (n - 1) := by
  simp [OverflowsOn, Overflows, offering.offeredVariables, totalSize_replicate]

/-- A processor registers and makes one offer so many times. -/
def repeatedOffers (name : Name) (n : Nat) : List Occurrence :=
  .connected ⟨2⟩ "" :: .request ⟨2⟩ (.registerProcessor ⟨2001, 0, 0⟩ 7) ::
    List.replicate n (.request ⟨2⟩ (.matchOrMake name.text .general ⟨2001, 0, 0⟩))

theorem offering_repeatedOffers (name : Name) {n : Nat} (room : n ≤ Key.sequenceLimit) :
    ((new none {}).run (repeatedOffers name n)).1.Offering ⟨2⟩ ⟨2001, 0, 0⟩ name n := by
  let start :=
    ((new none {}).run [.connected ⟨2⟩ "", .request ⟨2⟩ (.registerProcessor ⟨2001, 0, 0⟩ 7)]).1
  have offering : start.Offering ⟨2⟩ ⟨2001, 0, 0⟩ name 0 := by
    refine ⟨rfl, rfl, rfl, rfl, ?_⟩
    intro r mem
    exact absurd mem List.not_mem_nil
  have last := offering.run (by decide) (Nat.le_trans (Nat.le_of_eq (Nat.zero_add n)) room)
  rwa [Nat.zero_add] at last

theorem decoded_repeatedOffers (name : Name) (n : Nat) :
    ∀ e ∈ repeatedOffers name n, e.Decoded := by
  intro e mem
  simp only [repeatedOffers, List.mem_cons, List.mem_replicate] at mem
  rcases mem with rfl | rfl | ⟨-, rfl⟩
  · trivial
  · exact Signal.exists_decode_of_fits (by decide) (Signal.fits_of_isFixed rfl)
  · exact Signal.exists_decode_of_fits (by simp [Signal.kind])
      ⟨name.utf8ByteSize_text_le, Nat.zero_le _, Nat.zero_le _, trivial⟩

/-- Whatever the broker sends reaches the socket as a frame, unless it answers a request for a list
that overflows. Then nothing but the reply is sent, and the socket passes it over. -/
theorem delivered_iff_not_overflows (reached : b.Reached) (event : Occurrence) (signal : Signal)
    (sent : .deliver conn signal ∈ (b.step event).2) :
    (¬ b.OverflowsOn event → ∃ payload frame,
      signal.encode = .ok payload ∧ Frame.write payload = .ok frame ∧
      ∀ p : Socket, p.closed = false →
        p.deliver signal = { p with outbound := p.outbound ++ frame }) ∧
    (b.OverflowsOn event → (b.step event).2 = [.deliver conn signal] ∧
      (∃ fault, signal.encode = .error fault) ∧
      ∀ p : Socket, p.deliver signal = p) := by
  have exactly := fits_of_sent reached.light sent
  constructor
  · exact fun calm => deliver_of_fits (exactly.mpr calm)
  · intro overflows
    refine ⟨posts_of_overflows overflows sent, deliver_of_not_fits ?_⟩
    exact fun fits => exactly.mp fits overflows

/-- A name of sixty-four characters with four bytes each. -/
def longName : Name where
  text := String.ofList (List.replicate 64 '😀')
  sound := by
    have visible : Text.isBlank '😀' = false := by decide
    simp only [Name.defect?, String.toList_ofList, Limits.nameLength, List.length_replicate,
      List.any_replicate,
      List.isEmpty_replicate, visible]
    rfl

theorem utf8ByteSize_longName : longName.text.utf8ByteSize = 256 := by
  have size := utf8ByteSize_ofList_replicate 64 '😀'
  rwa [show '😀'.utf8Size = 4 from rfl] at size

/-- The list of two hundred and fifty-five long names takes 65534 bytes and goes out. -/
theorem delivered_longNames :
    let b := ((new none {}).run (repeatedOffers longName 255)).1
    let event : Occurrence := .request ⟨2⟩ (.getOfferedVars .general ⟨2001, 0, 0⟩)
    let reply : Signal := .offeredVarsAre (List.replicate 255 longName.text)
    b.Reached ∧ .deliver ⟨2⟩ reply ∈ (b.step event).2 ∧ ¬ b.OverflowsOn event ∧
      ∃ payload frame, reply.encode = .ok payload ∧ Frame.write payload = .ok frame ∧
        ∀ p : Socket, p.closed = false →
          p.deliver reply = { p with outbound := p.outbound ++ frame } := by
  intro b event reply
  have offering := offering_repeatedOffers longName (show 255 ≤ Key.sequenceLimit by decide)
  have reached : b.Reached :=
    ⟨none, {}, repeatedOffers longName 255, decoded_repeatedOffers longName 255, rfl⟩
  have sent : .deliver ⟨2⟩ reply ∈ (b.step event).2 := by
    rw [offering.posts]
    exact List.mem_singleton_self _
  have calm : ¬ b.OverflowsOn event := by
    rw [offering.overflowsOn_iff, utf8ByteSize_longName]
    decide
  exact ⟨reached, sent, calm, (delivered_iff_not_overflows reached event reply sent).1 calm⟩

/-- One more name makes it 65791 bytes: the reply cannot be encoded, and the request stays without
an answer. -/
theorem overflow_longNames :
    let b := ((new none {}).run (repeatedOffers longName 256)).1
    let event : Occurrence := .request ⟨2⟩ (.getOfferedVars .general ⟨2001, 0, 0⟩)
    (∀ e ∈ repeatedOffers longName 256, e.Decoded) ∧ event.Decoded ∧
      ∃ reply, (b.step event).2 = [.deliver ⟨2⟩ reply] ∧ (∃ fault, reply.encode = .error fault) ∧
        ∀ p : Socket, p.deliver reply = p := by
  intro b event
  have offering := offering_repeatedOffers longName (show 256 ≤ Key.sequenceLimit by decide)
  have overflows : b.OverflowsOn event := by
    rw [offering.overflowsOn_iff, utf8ByteSize_longName]
    decide
  have posts := offering.posts .general
  have sent : .deliver ⟨2⟩ (.offeredVarsAre (List.replicate 256 longName.text)) ∈
      (b.step event).2 := by
    rw [posts]
    exact List.mem_singleton_self _
  have reached : b.Reached :=
    ⟨none, {}, repeatedOffers longName 256, decoded_repeatedOffers longName 256, rfl⟩
  refine ⟨decoded_repeatedOffers longName 256, ?_, _, posts, deliver_of_not_fits ?_⟩
  · exact Signal.exists_decode_of_fits (by decide) (Signal.fits_of_isFixed rfl)
  · exact fun fits => (fits_of_sent reached.light sent).mp fits overflows

end Broker
end SharedVariables
