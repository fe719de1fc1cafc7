import SharedVariables.Proofs.Framing
import SharedVariables.Proofs.Posting
import SharedVariables.Service

/-! Which of the signals that the broker sends can be put on the wire. A value came in as one field
and goes out as one, names are short and a dump is cut to size; only the lists of offers grow
without bound. -/
namespace SharedVariables

namespace Text

theorem utf8ByteSize_ofList_le (cs : List Char) :
    (String.ofList cs).utf8ByteSize ≤ 4 * cs.length := by
  induction cs with
  | nil => simp
  | cons c rest ih =>
    have small := c.utf8Size_le_four
    simp only [String.ofList_cons, String.utf8ByteSize_append,
      String.utf8ByteSize_singleton, List.length_cons]
    omega

theorem utf8ByteSize_cutChars_le (room : Nat) (cs : List Char) :
    (String.ofList (cutChars room cs)).utf8ByteSize ≤ room := by
  fun_induction cutChars room cs with
  | case1 => simp
  | case2 room c rest here ih =>
    simp only [String.ofList_cons, String.utf8ByteSize_append, String.utf8ByteSize_singleton]
    omega
  | case3 => simp

theorem utf8ByteSize_cut_le (room : Nat) (s : String) : (cut room s).utf8ByteSize ≤ room := by
  unfold cut
  split
  · assumption
  · exact utf8ByteSize_cutChars_le room s.toList

end Text

theorem Name.utf8ByteSize_text_le (name : Name) : name.text.utf8ByteSize ≤ Limits.stringField := by
  obtain ⟨-, short, -⟩ := defect?_eq_none_iff.mp name.sound
  have bytes := Text.utf8ByteSize_ofList_le name.text.toList
  simp only [String.ofList_toList, Limits.nameLength, Limits.stringField] at bytes short ⊢
  omega

theorem Signal.Kind.utf8ByteSize_name_le (k : Kind) : k.name.utf8ByteSize ≤ Limits.stringField := by
  cases k <;> decide

theorem Signal.Notice.fits {signal : Signal} (notice : signal.Notice) : signal.Fits := by
  cases notice with
  | made key name offerer =>
    exact ⟨Nat.zero_le _, name.utf8ByteSize_text_le, Nat.zero_le _, trivial⟩
  | _ => exact fits_of_isFixed rfl

theorem Signal.fits_refusal (k : Kind) (key : Key) (fault : Fault) :
    (refusal k key fault).Fits := by
  have name := k.utf8ByteSize_name_le
  cases k with
  | getVarname => exact ⟨Nat.zero_le _, Nat.zero_le _, trivial⟩
  | getValue => exact ⟨Nat.zero_le _, Nat.zero_le _, name, Nat.zero_le _, trivial⟩
  | assignValue => exact ⟨Nat.zero_le _, Nat.zero_le _, name, trivial⟩
  | getOfferingProcs | getOfferedVars | printDatabase => exact ⟨by decide, trivial⟩
  | registerProcessor | registerEventChannel | isRegistered | matchOrMake | retractOffer |
      findPairingKey | mayUse
  | maySet | setState | getState | setControl | getControl | getCoupling | getEvents |
      clearAllEvents | addEvent
  | findOfferingId => exact fits_of_isFixed rfl
  | _ => exact ⟨Nat.zero_le _, name, trivial⟩

/-- The value of a record goes into one field. -/
def Record.Light (r : Record) : Prop := ∀ v, r.value = some v → v.length ≤ Limits.stringField

theorem Record.Light.of_value_eq {r s : Record} (light : r.Light) (same : s.value = r.value) :
    s.Light :=
  fun v stored => light v (same ▸ stored)

/-- What was requested had been read off the wire. -/
def Occurrence.Decoded : Occurrence → Prop
  | .request _ signal => ∃ bs, Signal.decode bs = .ok signal
  | _ => True

namespace Broker

def Light (b : Broker) : Prop := ∀ r ∈ b.table.records, r.Light

variable {b : Broker} {conn : ConnId} {request : Signal}

theorem Revised.light {r : Record} (revised : Revised b conn request r) (light : b.Light)
    (fits : request.Fits) :
    r.Light := by
  cases revised with
  | kept old => exact light r old
  | offered => exact fun v stored => by simp [Table.newOffer] at stored
  | coupled _ old => exact (light _ old).of_value_eq rfl
  | released old => exact (light _ old).of_value_eq (Record.value_release _ _)
  | reported old => exact (light _ old).of_value_eq (Record.value_report _ _ _)
  | restrained old => exact (light _ old).of_value_eq (Record.value_setControl _ _ _)
  | assigned =>
    intro v stored
    obtain rfl := Option.some.inj stored
    exact fits.2.1
  | alerted old => exact (light _ old).of_value_eq (Record.value_addEvents _ _ _)
  | cleared old => exact (light _ old).of_value_eq rfl

/-- The states that runs of requests off the wire lead to. -/
def Reached (b : Broker) : Prop :=
  ∃ capacity wording events,
    (∀ e ∈ events, Occurrence.Decoded e) ∧ b = ((new capacity wording).run events).1

theorem Reached.light (reached : b.Reached) : b.Light := by
  obtain ⟨capacity, wording, events, decoded, rfl⟩ := reached
  refine run_records (fun r conn light => light.of_value_eq (r.value_releaseHeld conn)) ?_
    capacity wording decoded
  rintro b conn request r ⟨bs, read⟩ light revised
  exact revised.light light (Signal.fits_of_decode read)

/-- A request whose answer is a list that takes more bytes than a field can have: twelve for each
processor, or those of the names with one between neighbours. -/
def Overflows (b : Broker) : Signal → Prop
  | .getOfferingProcs target => Limits.stringField < 12 * (b.table.offeringProcessors target).length
  | .getOfferedVars target offerer =>
    let names := b.table.offeredVariables target offerer
    Limits.stringField < Text.totalSize (names.map (·.text)) + (names.length - 1)
  | _ => False

theorem fits_names_iff (names : List Name) :
    (Signal.offeredVarsAre (names.map (·.text))).Fits ↔
      Text.totalSize (names.map (·.text)) + (names.length - 1) ≤ Limits.stringField := by
  have size := Signal.utf8ByteSize_joinNames (names.map (·.text))
  rw [List.length_map] at size
  rw [← size]
  exact and_iff_left trivial

/-- A request that succeeds has a reply that fits, or else overflows. -/
theorem fits_of_handle {reply : Signal} (light : b.Light)
    (answered : (b.handle conn request).outcome = .ok reply) :
    reply.Fits ↔ ¬ b.Overflows request := by
  have kind := answers_handle b conn request reply answered
  cases request with
  | getOfferingProcs target =>
    obtain rfl := Except.ok.inj answered
    exact (and_iff_left trivial).trans Nat.not_lt.symm
  | getOfferedVars target offerer =>
    obtain rfl := Except.ok.inj answered
    exact (fits_names_iff _).trans Nat.not_lt.symm
  | getVarname key =>
    obtain ⟨r, -, rfl⟩ := map_ok answered
    simp only [Overflows, not_false_eq_true, iff_true]
    exact ⟨Nat.zero_le _, r.name.utf8ByteSize_text_le, trivial⟩
  | getValue key =>
    simp only [Overflows, not_false_eq_true, iff_true]
    simp only [handle, settle, getValue] at answered
    split at answered
    · simp at answered
    · rename_i r side holds
      split at answered
      · rename_i payload stored
        obtain rfl := Except.ok.inj answered
        obtain ⟨id, -, held⟩ := held_ok holds
        obtain ⟨found, -⟩ := Table.activePartnerOf_ok held
        exact ⟨Nat.zero_le _, Nat.zero_le _, Nat.zero_le _,
          light r (Table.mem_of_get? found) payload stored, trivial⟩
      · simp at answered
  | assignValue key payload =>
    simp only [Overflows, not_false_eq_true, iff_true]
    simp only [handle, assignValue] at answered
    split at answered
    · simp [refuse, settle] at answered
    · obtain rfl := Except.ok.inj answered
      exact ⟨Nat.zero_le _, Nat.zero_le _, Nat.zero_le _, trivial⟩
  | printDatabase format =>
    simp only [Overflows, not_false_eq_true, iff_true]
    simp only [handle, settle, printDatabase] at answered
    split at answered
    · obtain rfl := Except.ok.inj answered
      exact ⟨Text.utf8ByteSize_cut_le _ _, trivial⟩
    · simp at answered
  | registerProcessor | registerEventChannel | isRegistered | matchOrMake | retractOffer |
      findPairingKey | mayUse
  | maySet | setState | getState | setControl | getControl | getCoupling | getEvents |
      clearAllEvents | addEvent
  | findOfferingId =>
    simp only [Overflows, not_false_eq_true, iff_true]
    apply Signal.fits_of_isFixed
    rw [kind]
    rfl
  | _ => simp [handle, refuse, settle] at answered

theorem fits_dispatch (light : b.Light) (conn : ConnId) (request : Signal) :
    (b.dispatch conn request).1.Fits ↔ ¬ b.Overflows request := by
  unfold dispatch
  simp only
  split
  · rename_i answered
    exact fits_of_handle light answered
  · rename_i refused
    simp only [Signal.fits_refusal, true_iff]
    -- The lists are never refused.
    cases request with
    | getOfferingProcs | getOfferedVars => simp [handle, answer, settle] at refused
    | _ => exact id

/-- The request of an event, if it is one, overflows. -/
def OverflowsOn (b : Broker) : Occurrence → Prop
  | .request _ signal => b.Overflows signal
  | _ => False

theorem Overflows.posts (overflows : b.Overflows request) (conn : ConnId) :
    (b.handle conn request).posts = [] := by
  cases request with
  | getOfferingProcs | getOfferedVars => rfl
  | _ => exact overflows.elim

theorem mem_send {c : ConnId} {signal reply : Signal}
    (sent : .deliver c signal ∈ b.send conn reply) :
    c = conn ∧ signal = reply := by
  unfold send at sent
  split at sent
  · simpa using sent
  · simp at sent

/-- A request that overflows is answered at most, and sends nothing else. -/
theorem posts_of_overflows {event : Occurrence} {signal : Signal}
    (overflows : b.OverflowsOn event) (sent : .deliver conn signal ∈ (b.step event).2) :
    (b.step event).2 = [.deliver conn signal] := by
  cases event with
  | request c request =>
    have none : (b.handle c request).posts = [] := Overflows.posts overflows c
    simp only [step, dispatch_posts, none, List.nil_append] at sent ⊢
    obtain ⟨rfl, rfl⟩ := mem_send sent
    unfold send at sent ⊢
    split at sent
    · rename_i live
      exact if_pos live
    · simp at sent
  | _ => exact overflows.elim

theorem Unasked.fits {r : Roster} {signal : Signal} (unasked : Unasked r (.deliver conn signal)) :
    signal.Fits := by
  cases unasked with
  | notice notice => exact notice.fits

theorem fits_of_sent (light : b.Light) {event : Occurrence} {signal : Signal}
    (sent : .deliver conn signal ∈ (b.step event).2) : signal.Fits ↔ ¬ b.OverflowsOn event := by
  cases event with
  | connected => simp [step] at sent
  | request c request =>
    simp only [step, dispatch_posts, List.mem_append] at sent
    rcases sent with early | reply
    · have calm : ¬ b.Overflows request := by
        intro overflows
        simp [overflows.posts c] at early
      exact iff_of_true ((handle_handled b c request).unasked early).fits calm
    · rw [(mem_send reply).2]
      exact fits_dispatch light c request
  | malformed c fault =>
    rw [(mem_send sent).2]
    exact iff_of_true ⟨Nat.zero_le _, by decide, trivial⟩ id
  | disconnected c => exact iff_of_true ((depart_departs b [c]).unasked sent).fits id

theorem deliver_of_fits {signal : Signal} (fits : signal.Fits) :
    ∃ payload frame, signal.encode = .ok payload ∧ Frame.write payload = .ok frame ∧
      ∀ p : Socket, p.closed = false →
        p.deliver signal = { p with outbound := p.outbound ++ frame } := by
  obtain ⟨payload, encoded⟩ := signal.encode_ok_iff.mpr fits
  have framed := Frame.write_eq (Signal.length_le_of_encode encoded)
  refine ⟨payload, _, encoded, framed, ?_⟩
  intro p isOpen
  simp [Socket.deliver, isOpen, encoded, framed, Except.bind]

theorem deliver_of_not_fits {signal : Signal} (long : ¬ signal.Fits) :
    (∃ fault, signal.encode = .error fault) ∧ ∀ p : Socket, p.deliver signal = p := by
  cases encoded : signal.encode with
  | ok payload => exact absurd (signal.encode_ok_iff.mp ⟨payload, encoded⟩) long
  | error fault =>
    refine ⟨⟨fault, rfl⟩, ?_⟩
    intro p
    simp [Socket.deliver, encoded, Except.bind]

end Broker
end SharedVariables
