import Mathlib
import Reroute.Hook.Message
import Reroute.Proofs.Json.RoundTrip

/-!
# What a stream holds

A stream holds a request for every value at its start that is an object with a kind and a
payload, up to its end or up to something that is no such value.  A request takes the last kind
that is not `null`, and the text of the last payload.

A stream of requests that were written one a line holds these requests.
-/

namespace Reroute

namespace Hook

/-! ### Requests -/

namespace Request

/-- The texts of the members for a field, in order. -/
def textsOf (field : String) (members : List (Bytes × Bytes)) : List Bytes :=
  (members.filter fun member => Json.selects member.1 field).map Prod.snd

/-- What is left of a request by members that come behind it.  Their kinds are texts or `null`,
and the last text counts; of the payloads the last one counts, as it is written. -/
structure ReadsFrom (start : Request) (members : List (Bytes × Bytes)) (request : Request) :
    Prop where
  kind : ∃ kinds : List (Option Bytes),
    (textsOf "type" members).map Json.parse? =
        kinds.map (fun kind => some (kind.elim Json.Value.null Json.Value.string)) ∧
      request.kind = kinds.reduceOption.getLastD start.kind
  payload : request.payload = (textsOf "payload" members).getLastD start.payload

/-- A value with the given text is a request. -/
inductive IsRequest (text : Bytes) : Json.Value → Request → Prop where
  | null : IsRequest text .null ⟨[], []⟩
  | object {members : List (Bytes × Json.Value)} {request : Request} :
      ReadsFrom ⟨[], []⟩ (Json.rawMembers text) request →
      IsRequest text (.object members) request

/-! One member more in front, by what it is for. -/

section

variable {start request : Request} {name text : Bytes} {members : List (Bytes × Bytes)}

theorem textsOf_cons_of_pos {field : String} (selected : Json.selects name field = true) :
    textsOf field ((name, text) :: members) = text :: textsOf field members := by
  simp [textsOf, selected]

theorem textsOf_cons_of_neg {field : String} (selected : Json.selects name field = false) :
    textsOf field ((name, text) :: members) = textsOf field members := by
  simp [textsOf, selected]

theorem selects_payload_of_type (kind : Json.selects name "type" = true) :
    Json.selects name "payload" = false := by
  unfold Json.selects at kind ⊢
  rw [beq_iff_eq] at kind
  rw [kind]
  decide +kernel

theorem getLastD_reduceOption_cons (first : Option Bytes) (kinds : List (Option Bytes))
    (start : Bytes) :
    (first :: kinds).reduceOption.getLastD start =
      kinds.reduceOption.getLastD (first.getD start) := by
  cases first with
  | none => rfl
  | some first => exact List.getLastD_cons

theorem readsFrom_cons_kind (kind : Json.selects name "type" = true) :
    ReadsFrom start ((name, text) :: members) request ↔
      ∃ first : Option Bytes,
        Json.parse? text = some (first.elim Json.Value.null Json.Value.string) ∧
          ReadsFrom { start with kind := first.getD start.kind } members request := by
  have payloads : textsOf "payload" ((name, text) :: members) = textsOf "payload" members :=
    textsOf_cons_of_neg (selects_payload_of_type kind)
  constructor
  · rintro ⟨⟨kinds, read, last⟩, payload⟩
    rw [textsOf_cons_of_pos kind] at read
    cases kinds with
    | nil => cases read
    | cons first kinds =>
        rw [List.map_cons, List.map_cons, List.cons.injEq] at read
        rw [getLastD_reduceOption_cons] at last
        rw [payloads] at payload
        exact ⟨first, read.1, ⟨kinds, read.2, last⟩, payload⟩
  · rintro ⟨first, parsed, ⟨kinds, read, last⟩, payload⟩
    refine ⟨⟨first :: kinds, ?_, ?_⟩, ?_⟩
    · rw [textsOf_cons_of_pos kind, List.map_cons, List.map_cons, parsed, read]
    · rw [getLastD_reduceOption_cons]
      exact last
    · rw [payloads]
      exact payload

theorem readsFrom_cons_payload (kind : Json.selects name "type" = false)
    (payload : Json.selects name "payload" = true) :
    ReadsFrom start ((name, text) :: members) request ↔
      ReadsFrom { start with payload := text } members request := by
  constructor
  · rintro ⟨kinds, last⟩
    rw [textsOf_cons_of_neg kind] at kinds
    rw [textsOf_cons_of_pos payload, List.getLastD_cons] at last
    exact ⟨kinds, last⟩
  · rintro ⟨kinds, last⟩
    constructor
    · rw [textsOf_cons_of_neg kind]
      exact kinds
    · rw [textsOf_cons_of_pos payload, List.getLastD_cons]
      exact last

theorem readsFrom_cons_other (kind : Json.selects name "type" = false)
    (payload : Json.selects name "payload" = false) :
    ReadsFrom start ((name, text) :: members) request ↔ ReadsFrom start members request := by
  constructor
  · rintro ⟨kinds, last⟩
    rw [textsOf_cons_of_neg kind] at kinds
    rw [textsOf_cons_of_neg payload] at last
    exact ⟨kinds, last⟩
  · rintro ⟨kinds, last⟩
    constructor
    · rw [textsOf_cons_of_neg kind]
      exact kinds
    · rw [textsOf_cons_of_neg payload]
      exact last

end

theorem fillText_eq_some_iff {current kind : Bytes} {value : Json.Value} :
    Json.fillText current value = some kind ↔
      ∃ first : Option Bytes, value = first.elim Json.Value.null Json.Value.string ∧
        kind = first.getD current := by
  constructor
  · intro filled
    cases value with
    | string content =>
        cases filled
        exact ⟨some kind, rfl, rfl⟩
    | null =>
        cases filled
        exact ⟨none, rfl, rfl⟩
    | _ => cases filled
  · rintro ⟨first, rfl, rfl⟩
    cases first with
    | none => rfl
    | some content => rfl

theorem takeAll_eq_some_iff {members : List (Bytes × Bytes)} {start request : Request} :
    start.takeAll members = some request ↔ ReadsFrom start members request := by
  induction members generalizing start with
  | nil =>
      constructor
      · intro taken
        cases taken
        exact ⟨⟨[], rfl, rfl⟩, rfl⟩
      · rintro ⟨⟨kinds, read, last⟩, payload⟩
        obtain rfl : kinds = [] := by simpa [textsOf] using read.symm
        obtain ⟨kind, content⟩ := request
        cases last
        cases payload
        rfl
  | cons member members induction =>
      obtain ⟨name, text⟩ := member
      rw [takeAll, take]
      cases kind : Json.selects name "type" with
      | true =>
          rw [readsFrom_cons_kind kind, if_pos rfl]
          constructor
          · intro taken
            split at taken
            · next next filled =>
                rw [Option.map_eq_some_iff] at filled
                obtain ⟨last, bound, rfl⟩ := filled
                obtain ⟨value, parsed, fills⟩ := Option.bind_eq_some_iff.mp bound
                obtain ⟨first, rfl, rfl⟩ := fillText_eq_some_iff.mp fills
                exact ⟨first, parsed, induction.mp taken⟩
            · cases taken
          · rintro ⟨first, parsed, reads⟩
            have fills : Json.fillText start.kind (first.elim Json.Value.null Json.Value.string) =
                some (first.getD start.kind) :=
              fillText_eq_some_iff.mpr ⟨first, rfl, rfl⟩
            simp only [parsed, Option.bind_some, fills, Option.map_some]
            exact induction.mpr reads
      | false =>
          cases payload : Json.selects name "payload" with
          | true => rw [readsFrom_cons_payload kind payload, ← induction]; rfl
          | false => rw [readsFrom_cons_other kind payload, ← induction]; rfl

theorem ofValue?_eq_some_iff {value : Json.Value} {text : Bytes} {request : Request} :
    ofValue? value text = some request ↔ IsRequest text value request := by
  constructor
  · intro read
    cases value with
    | object members => exact .object (takeAll_eq_some_iff.mp read)
    | null =>
        cases read
        exact .null
    | _ => cases read
  · intro isRequest
    cases isRequest with
    | null => rfl
    | object reads => exact takeAll_eq_some_iff.mpr reads

end Request

/-! ### Streams -/

namespace Stream

theorem length_lt_of_head {text rest : Bytes} {request : Request}
    (found : head text = .request request rest) : rest.length < text.length := by
  unfold head at found
  dsimp only at found
  split at found
  · cases found
  · split at found
    · cases found
    · next value after read =>
        split at found
        · cases found
        · cases found
          have fits := (Json.readers_fit _).1 read
          have skipped := Json.length_skipBlanks_le text
          have positive := value.extent_pos
          unfold Json.Fits at fits
          omega

/-- Fuel for more requests than there are bytes is as good as any more. -/
theorem readFrom_congr {fuel other : Nat} {text : Bytes} (enough : text.length < fuel)
    (otherEnough : text.length < other) : readFrom fuel text = readFrom other text := by
  induction fuel generalizing other text with
  | zero => simp at enough
  | succ fuel induction =>
      cases other with
      | zero => simp at otherEnough
      | succ other =>
          rw [readFrom, readFrom]
          split
          · rfl
          · rfl
          · next request rest found =>
              have shorter := length_lt_of_head found
              rw [@induction other rest (by omega) (by omega)]

theorem read_eq (text : Bytes) :
    read text =
      match head text with
      | .nothing => ⟨[], false⟩
      | .malformed => ⟨[], true⟩
      | .request request rest => (read rest).push request := by
  rw [read, readFrom]
  cases found : head text with
  | nothing => rfl
  | malformed => rfl
  | request request rest =>
      dsimp only
      rw [read, readFrom_congr (length_lt_of_head found) (Nat.lt_succ_self rest.length)]

/-- A request stands at the start of a text, behind blanks. -/
def StartsWith (text : Bytes) (request : Request) (rest : Bytes) : Prop :=
  ∃ value, Json.read? (Json.skipBlanks text) = some (value, rest) ∧
    Request.IsRequest
      ((Json.skipBlanks text).take ((Json.skipBlanks text).length - rest.length)) value request

/-- A text holds requests.  Behind them there is nothing but blanks, or it is malformed. -/
inductive Holds : Bytes → List Request → Bool → Prop where
  | ended {text : Bytes} : Json.skipBlanks text = [] → Holds text [] false
  | malformed {text : Bytes} :
      Json.skipBlanks text ≠ [] → (∀ request rest, ¬StartsWith text request rest) →
      Holds text [] true
  | request {text rest : Bytes} {request : Request} {requests : List Request}
      {malformed : Bool} :
      StartsWith text request rest → Holds rest requests malformed →
      Holds text (request :: requests) malformed

theorem startsWith_iff {text rest : Bytes} {request : Request} :
    StartsWith text request rest ↔
      Json.skipBlanks text ≠ [] ∧ head text = .request request rest := by
  constructor
  · rintro ⟨value, read, isRequest⟩
    have filled : Json.skipBlanks text ≠ [] := by
      intro empty
      rw [empty] at read
      cases read
    refine ⟨filled, ?_⟩
    simp only [head, List.isEmpty_iff, filled, if_false, read,
      Request.ofValue?_eq_some_iff.mpr isRequest]
  · rintro ⟨filled, found⟩
    simp only [head, List.isEmpty_iff, filled, if_false] at found
    split at found
    · cases found
    · next value after read =>
        split at found
        · cases found
        · next taken =>
            cases found
            exact ⟨value, read, Request.ofValue?_eq_some_iff.mp taken⟩

theorem head_eq_nothing_iff {text : Bytes} :
    head text = .nothing ↔ Json.skipBlanks text = [] := by
  constructor
  · intro found
    by_contra filled
    simp only [head, List.isEmpty_iff, filled, if_false] at found
    split at found
    · cases found
    · split at found
      · cases found
      · cases found
  · intro empty
    simp [head, empty]

/-- Reading a stream finds what it holds. -/
theorem holds_iff {text : Bytes} {requests : List Request} {malformed : Bool} :
    Holds text requests malformed ↔ read text = ⟨requests, malformed⟩ := by
  constructor
  · intro holds
    induction holds with
    | ended empty => rw [read_eq, head_eq_nothing_iff.mpr empty]
    | @malformed text filled absent =>
        rw [read_eq]
        cases found : head text with
        | nothing => exact absurd (head_eq_nothing_iff.mp found) filled
        | malformed => rfl
        | request request rest => exact absurd (startsWith_iff.mpr ⟨filled, found⟩) (absent _ _)
    | request starts _ induction =>
        rw [read_eq, (startsWith_iff.mp starts).2]
        simp only [induction, push]
  · intro found
    induction size : text.length using Nat.strong_induction_on generalizing text requests with
    | _ size induction =>
        rw [read_eq] at found
        by_cases empty : Json.skipBlanks text = []
        · rw [head_eq_nothing_iff.mpr empty] at found
          cases found
          exact .ended empty
        · cases first : head text with
          | nothing => exact absurd (head_eq_nothing_iff.mp first) empty
          | malformed =>
              rw [first] at found
              cases found
              refine .malformed empty ?_
              intro request rest starts
              rw [startsWith_iff, first] at starts
              cases starts.2
          | request request rest =>
              rw [first] at found
              cases found
              refine .request (startsWith_iff.mpr ⟨empty, first⟩) ?_
              have shorter := length_lt_of_head first
              exact induction rest.length (by omega) rfl rfl

/-! ### Requests that were written -/

/-- The object that is sent for a request. -/
def sent (kind : Bytes) (payload : Json.Value) : Json.Value :=
  .object [(utf8 "type", .string kind), (utf8 "payload", payload)]

/-- A request on a line of its own. -/
def line (kind : Bytes) (payload : Json.Value) : Bytes :=
  (sent kind payload).compact ++ [10]

end Stream

end Hook

namespace Json

theorem endsNumber_lineBreak (rest : Bytes) : EndsNumber (10 :: rest) := by
  intro byte member
  cases member
  decide

/-- What is written is read again, whatever follows it. -/
theorem Value.Writable.read?_append {room : Nat} {value : Value} (writable : value.Writable room)
    (fits : room ≤ maxDepth) {rest : Bytes} (ends : EndsNumber rest) :
    read? (value.compact ++ rest) = some (value, rest) := by
  have bound := writable.extent_le
  have enough : value.extent ≤ enoughFuel (value.compact ++ rest) := by
    rw [enoughFuel, List.length_append]
    omega
  exact writable.readsBack (show 0 + room ≤ maxDepth by omega) enough ends

theorem Value.Writable.skipBlanks_append {room : Nat} {value : Value}
    (writable : value.Writable room) (rest : Bytes) :
    skipBlanks (value.compact ++ rest) = value.compact ++ rest := by
  obtain ⟨first, later, equality, visible, -⟩ := writable.exists_compact_eq_cons
  rw [equality, List.cons_append, skipBlanks_cons first visible]

/-- A member is found, and a comma behind it says that another one follows. -/
theorem rawMembersFrom_member {name : Bytes} {value : Value} {room : Nat}
    (valid : name.validUtf8 = true) (writable : value.Writable room) (fits : room ≤ maxDepth)
    {mark : UInt8} (behind : mark = 44 ∨ mark = 125) (rest : Bytes) (fuel : Nat)
    (done : List (Bytes × Bytes)) :
    rawMembersFrom (fuel + 1) done (quote name ++ 58 :: (value.compact ++ mark :: rest)) =
      if mark = 44 then rawMembersFrom fuel ((name, value.compact) :: done) rest
      else ((name, value.compact) :: done).reverse := by
  have ends : EndsNumber (mark :: rest) :=
    endsNumber_cons mark (by rcases behind with rfl | rfl <;> decide) rest
  have literal := readString_quote valid (58 :: (value.compact ++ mark :: rest))
  have read := writable.read?_append fits ends
  have taken : (value.compact ++ mark :: rest).take
      ((value.compact ++ mark :: rest).length - (mark :: rest).length) = value.compact := by
    rw [List.length_append, Nat.add_sub_cancel]
    exact List.take_left
  rw [rawMembersFrom, quote]
  simp only [List.cons_append, List.append_assoc, List.nil_append]
  simp only [skipBlanks_cons 34 rfl, literal, skipBlanks_cons 58 rfl, List.drop_succ_cons,
    List.drop_zero, writable.skipBlanks_append, read, taken]
  rcases behind with rfl | rfl
  · simp [skipBlanks_cons 44 rfl]
  · simp [skipBlanks_cons 125 rfl]

/-- The texts of members are found as they were written. -/
theorem rawMembersFrom_compact {members : List (Bytes × Value)} {room fuel : Nat}
    (names : ∀ member ∈ members, member.1.validUtf8 = true)
    (writable : ∀ member ∈ members, member.2.Writable room) (fits : room ≤ maxDepth)
    (enough : members.length ≤ fuel) (done : List (Bytes × Bytes)) (rest : Bytes) :
    rawMembersFrom fuel done (Value.compactMembers members ++ 125 :: rest) =
      done.reverse ++ members.map fun member => (member.1, member.2.compact) := by
  induction members generalizing fuel done with
  | nil =>
      cases fuel with
      | zero => simp [rawMembersFrom]
      | succ fuel => simp [rawMembersFrom, Value.compactMembers, skipBlanks_cons 125 rfl]
  | cons member members induction =>
      obtain ⟨name, value⟩ := member
      obtain ⟨fuel, rfl⟩ : ∃ less, fuel = less + 1 := ⟨fuel - 1, by simp at enough; omega⟩
      rw [List.forall_mem_cons] at names writable
      cases members with
      | nil =>
          have read := rawMembersFrom_member names.1 writable.1 fits (.inr rfl) rest fuel done
          rw [Value.compactMembers, List.append_assoc, List.cons_append, read]
          simp
      | cons next members =>
          have read := rawMembersFrom_member names.1 writable.1 fits (.inl rfl)
            (Value.compactMembers (next :: members) ++ 125 :: rest) fuel done
          have later := induction names.2 writable.2 (Nat.le_of_succ_le_succ enough)
            ((name, value.compact) :: done)
          rw [compactMembers_cons_cons, List.append_assoc, List.append_assoc, List.cons_append,
            List.cons_append, read, if_pos rfl]
          simp only [later, List.reverse_cons, List.map_cons, List.append_assoc,
            List.singleton_append]

theorem length_le_compactMembers (members : List (Bytes × Value)) :
    members.length ≤ (Value.compactMembers members).length := by
  induction members with
  | nil => exact Nat.le_refl 0
  | cons member members induction =>
      cases members with
      | nil => simp [Value.compactMembers, Nat.add_comm, Nat.add_left_comm]
      | cons next members =>
          obtain ⟨name, value⟩ := member
          rw [compactMembers_cons_cons, List.length_append, List.length_cons, List.length_cons]
          exact Nat.le_trans (Nat.succ_le_succ induction) (Nat.le_add_left _ _)

theorem rawMembers_compact {members : List (Bytes × Value)} {room : Nat}
    (names : ∀ member ∈ members, member.1.validUtf8 = true)
    (writable : ∀ member ∈ members, member.2.Writable room) (fits : room ≤ maxDepth) :
    rawMembers (Value.object members).compact =
      members.map fun member => (member.1, member.2.compact) := by
  have enough : members.length ≤ (Value.compactMembers members ++ [125]).length := by
    have bound := length_le_compactMembers members
    rw [List.length_append]
    omega
  rw [rawMembers, Value.compact, List.cons_append, skipBlanks_cons 123 rfl]
  exact rawMembersFrom_compact names writable fits enough [] []

end Json

namespace Hook.Stream

variable {kind text : Bytes} {payload : Json.Value} {room : Nat}

theorem startsWith_line (valid : kind.validUtf8 = true) (writable : payload.Writable room)
    (fits : room < Json.maxDepth) (rest : Bytes) :
    StartsWith (line kind payload ++ rest) ⟨kind, payload.compact⟩ (10 :: rest) := by
  have names : ∀ member ∈ [(utf8 "type", Json.Value.string kind), (utf8 "payload", payload)],
      member.1.validUtf8 = true := by
    simp only [List.forall_mem_cons, List.not_mem_nil, false_implies, implies_true, and_true]
    exact ⟨by decide +kernel, by decide +kernel⟩
  have values : ∀ member ∈ [(utf8 "type", Json.Value.string kind), (utf8 "payload", payload)],
      member.2.Writable room := by
    simp only [List.forall_mem_cons, List.not_mem_nil, false_implies, implies_true, and_true]
    exact ⟨.string valid, writable⟩
  have whole : (sent kind payload).Writable (room + 1) := .object names values
  have first : Json.selects (utf8 "type") "type" = true := by decide +kernel
  have second : Json.selects (utf8 "payload") "payload" = true := by decide +kernel
  have other : Json.selects (utf8 "payload") "type" = false := by decide +kernel
  have parsed : Json.parse? (Json.Value.string kind).compact = some (.string kind) :=
    Json.parse?_compact (.string valid) (Nat.zero_le _)
  have split : line kind payload ++ rest = (sent kind payload).compact ++ 10 :: rest := by
    simp [line]
  refine ⟨sent kind payload, ?_, ?_⟩
  · rw [split, whole.skipBlanks_append]
    exact whole.read?_append fits (Json.endsNumber_lineBreak rest)
  · rw [split, whole.skipBlanks_append, List.length_append, Nat.add_sub_cancel, List.take_left]
    refine .object ?_
    rw [sent, Json.rawMembers_compact names values (Nat.le_of_lt fits), List.map_cons,
      List.map_cons, List.map_nil]
    refine (Request.readsFrom_cons_kind first).mpr ⟨some kind, parsed, ?_⟩
    refine (Request.readsFrom_cons_payload other second).mpr ?_
    exact ⟨⟨[], rfl, rfl⟩, rfl⟩

/-- Blanks in front of a stream do not matter. -/
theorem Holds.cons_blank {byte : UInt8} {requests : List Request} {malformed : Bool}
    (blank : Bytes.isLayout byte = true) (holds : Holds text requests malformed) :
    Holds (byte :: text) requests malformed := by
  have skipped : Json.skipBlanks (byte :: text) = Json.skipBlanks text := by
    simp [Json.skipBlanks, blank]
  cases holds with
  | ended empty => exact .ended (skipped.trans empty)
  | malformed filled absent =>
      refine .malformed (by rwa [skipped]) ?_
      intro request rest starts
      apply absent request rest
      unfold StartsWith at starts ⊢
      rwa [skipped] at starts
  | request starts later =>
      refine .request ?_ later
      unfold StartsWith at starts ⊢
      rwa [skipped]

/-- A stream of requests that were written one a line holds these requests. -/
theorem holds_lines {requests : List (Bytes × Json.Value)} (fits : room < Json.maxDepth)
    (kinds : ∀ request ∈ requests, request.1.validUtf8 = true)
    (payloads : ∀ request ∈ requests, request.2.Writable room) :
    Holds (requests.flatMap fun request => line request.1 request.2)
      (requests.map fun request => ⟨request.1, request.2.compact⟩) false := by
  induction requests with
  | nil => exact .ended rfl
  | cons request requests induction =>
      rw [List.forall_mem_cons] at kinds payloads
      rw [List.flatMap_cons, List.map_cons]
      refine .request (startsWith_line kinds.1 payloads.1 fits _) ?_
      exact (induction kinds.2 payloads.2).cons_blank rfl

end Hook.Stream

end Reroute
