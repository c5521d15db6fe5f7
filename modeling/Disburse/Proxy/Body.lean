import Disburse.Library.Machine
import Disburse.Proxy.Attempt

/-!
Owns what `read_bytes_limited` returns for every stream of chunks and read errors,
and that neither its result nor the attempt around it depends on how a body is split.

The limit is tested on the announced length and on the running sum; both tests are
about the bytes that arrive before the first read error.
-/

namespace Disburse

open Disburse.Library

/-! ### Streams -/

/-- The bytes of the chunks before the first read error. -/
def received : List (Except String Bytes) → Bytes
  | [] | .error _ :: _ => []
  | .ok chunk :: rest => chunk ++ received rest

def firstError : List (Except String Bytes) → Option String
  | [] => none
  | .error message :: _ => some message
  | .ok _ :: rest => firstError rest

@[simp] theorem received_map_ok (parts : List Bytes) :
    received (parts.map .ok) = parts.flatten := by
  induction parts with
  | nil => rfl
  | cons part rest inductionHypothesis =>
      rw [List.map_cons, received, inductionHypothesis, List.flatten_cons]

@[simp] theorem firstError_map_ok (parts : List Bytes) : firstError (parts.map .ok) = none := by
  induction parts with
  | nil => rfl
  | cons part rest inductionHypothesis =>
      rw [List.map_cons, firstError, inductionHypothesis]

/-! ### The chunk loop -/

/-- The chunk loop as a machine: its state is the buffer, and it stops at a read
error and at a chunk that does not fit. -/
def bodyReader (max : Nat) : Machine Bytes (Except String Bytes) where
  init := []
  step
    | _, .error _ => none
    | buffer, .ok chunk =>
        if max < buffer.length + chunk.length then none else some (buffer ++ chunk)

section Loop

variable {max : Nat}

/-- The loop returns the buffer of the machine that has taken the whole stream. -/
theorem readChunks_toOption (chunks : List (Except String Bytes)) (buffer : Bytes) :
    (readChunks max buffer chunks).toOption = (bodyReader max).execFrom buffer chunks := by
  induction chunks generalizing buffer with
  | nil => rfl
  | cons item rest inductionHypothesis =>
      cases item with
      | error message => rfl
      | ok chunk =>
          rw [readChunks, Machine.execFrom_cons, bodyReader]
          dsimp only
          split
          · rfl
          · exact inductionHypothesis (buffer ++ chunk)

theorem bodyReader_step_le {buffer next : Bytes} {item : Except String Bytes}
    (stepped : (bodyReader max).step buffer item = some next) : next.length ≤ max := by
  cases item with
  | error message => cases stepped
  | ok chunk =>
      simp only [bodyReader, Option.ite_none_left_eq_some, Option.some_inj] at stepped
      obtain ⟨fits, rfl⟩ := stepped
      rw [List.length_append]
      omega

/-- The buffer never holds more than the limit. -/
theorem bodyReader_throughout (chunks : List (Except String Bytes)) :
    (bodyReader max).Throughout (fun buffer => buffer.length ≤ max) [] chunks := by
  apply Machine.throughout_of_everyStep (bodyReader max) (I := fun _ => True) (C := fun _ _ => True)
  · intro buffer item next _ _ _ stepped
    exact ⟨trivial, bodyReader_step_le stepped⟩
  · trivial
  · exact Nat.zero_le max
  · exact Machine.everyStep_trivial _ _ _

/-- The loop by what arrives: the running sum passes the limit exactly when the
whole of it does. -/
theorem readChunks_eq (chunks : List (Except String Bytes)) {buffer : Bytes}
    (held : buffer.length ≤ max) :
    readChunks max buffer chunks =
      if max < buffer.length + (received chunks).length then .error .tooLarge
      else match firstError chunks with
        | some message => .error (.read message)
        | none => .ok (buffer ++ received chunks) := by
  induction chunks generalizing buffer with
  | nil =>
      have inside : ¬ max < buffer.length + (received []).length := Nat.not_lt.mpr held
      rw [if_neg inside, received, List.append_nil]
      rfl
  | cons item rest inductionHypothesis =>
      cases item with
      | error message =>
          have inside : ¬ max < buffer.length + (received (.error message :: rest)).length :=
            Nat.not_lt.mpr held
          rw [if_neg inside]
          rfl
      | ok chunk =>
          rw [readChunks, received, firstError, List.length_append]
          by_cases exceeds : max < buffer.length + chunk.length
          · rw [if_pos exceeds, if_pos (by omega)]
          · have fits : (buffer ++ chunk).length ≤ max := by
              rw [List.length_append]
              omega
            rw [if_neg exceeds, inductionHypothesis fits, List.length_append, List.append_assoc,
              Nat.add_assoc]

end Loop

/-! ### The whole response -/

/-- The length of a body that arrives whole is the announced one. -/
def HttpResponse.HonestLength (response : HttpResponse) : Prop :=
  firstError response.chunks = none →
    ∀ length ∈ response.contentLength, length = (received response.chunks).length

theorem readBytesLimited_eq (response : HttpResponse) (max : Nat) :
    readBytesLimited response max =
      if (∃ length ∈ response.contentLength, max < length) ∨
          max < (received response.chunks).length then .error .tooLarge
      else match firstError response.chunks with
        | some message => .error (.read message)
        | none => .ok (response.status, response.contentType, received response.chunks) := by
  have announced : (response.contentLength.any fun length => max < length) = true ↔
      ∃ length ∈ response.contentLength, max < length := by
    simp [Option.any_eq_true]
  rw [readBytesLimited, readChunks_eq response.chunks (Nat.zero_le max), List.length_nil,
    Nat.zero_add, List.nil_append]
  by_cases early : ∃ length ∈ response.contentLength, max < length
  · rw [if_pos (announced.mpr early), if_pos (.inl early)]
  · rw [if_neg (announced.not.mpr early)]
    by_cases late : max < (received response.chunks).length
    · rw [if_pos late, if_pos (.inr late)]
    · rw [if_neg late, if_neg (not_or.mpr ⟨early, late⟩)]
      cases firstError response.chunks <;> rfl

/-- A body that arrives whole, with an honest length or none. -/
theorem HttpResponse.HonestLength.readBytesLimited_eq {response : HttpResponse}
    (honest : response.HonestLength) (arrived : firstError response.chunks = none) (max : Nat) :
    readBytesLimited response max =
      if max < (received response.chunks).length then .error .tooLarge
      else .ok (response.status, response.contentType, received response.chunks) := by
  have announced : (∃ length ∈ response.contentLength, max < length) →
      max < (received response.chunks).length := by
    rintro ⟨length, announced, exceeds⟩
    rwa [honest arrived length announced] at exceeds
  simp only [Disburse.readBytesLimited_eq, or_iff_right_of_imp announced, arrived]

/-- A body is read exactly: it is returned whole when it arrives and fits, too large
when it does not fit or does not claim to, and a read error otherwise; how it is
split makes no difference, and the buffer stays within the limit. -/
theorem readBytesLimited_exact (response : HttpResponse) (max : Nat)
    (honest : response.HonestLength) :
    (firstError response.chunks = none → (received response.chunks).length ≤ max →
      readBytesLimited response max =
        .ok (response.status, response.contentType, received response.chunks)) ∧
    ((∃ length ∈ response.contentLength, max < length) ∨
        max < (received response.chunks).length →
      readBytesLimited response max = .error .tooLarge) ∧
    (∀ message, firstError response.chunks = some message →
      (∀ length ∈ response.contentLength, length ≤ max) →
      (received response.chunks).length ≤ max →
      readBytesLimited response max = .error (.read message)) ∧
    (firstError response.chunks = none → ∀ other : HttpResponse, other.HonestLength →
      other.status = response.status → other.contentType = response.contentType →
      firstError other.chunks = none → received other.chunks = received response.chunks →
      readBytesLimited other max = readBytesLimited response max) ∧
    (readChunks max [] response.chunks).toOption = (bodyReader max).exec response.chunks ∧
    (bodyReader max).Throughout (fun buffer => buffer.length ≤ max) [] response.chunks := by
  refine ⟨?_, ?_, ?_, ?_, readChunks_toOption response.chunks [],
    bodyReader_throughout response.chunks⟩
  · intro arrived fits
    rw [honest.readBytesLimited_eq arrived, if_neg (Nat.not_lt.mpr fits)]
  · intro exceeds
    rw [readBytesLimited_eq, if_pos exceeds]
  · intro message broken announced fits
    have inside : ¬ ((∃ length ∈ response.contentLength, max < length) ∨
        max < (received response.chunks).length) := by
      rintro (⟨length, member, exceeds⟩ | exceeds)
      · exact absurd exceeds (Nat.not_lt.mpr (announced length member))
      · exact absurd exceeds (Nat.not_lt.mpr fits)
    rw [readBytesLimited_eq, if_neg inside, broken]
  · intro arrived other otherHonest status contentType otherArrived same
    rw [otherHonest.readBytesLimited_eq otherArrived, honest.readBytesLimited_eq arrived, status,
      contentType, same]

/-- A body of exactly the limit, behind an empty chunk and byte by byte. -/
theorem readBytesLimited_exact_boundary :
    let body : Bytes := [91, 49, 44, 50, 93]
    let response : HttpResponse := ⟨200, some "application/json", some 5, [.ok [], .ok body]⟩
    let other : HttpResponse :=
      ⟨200, some "application/json", none, body.map fun byte => .ok [byte]⟩
    readBytesLimited response 5 = .ok (200, some "application/json", body) ∧
      readBytesLimited other 5 = readBytesLimited response 5 ∧
      readBytesLimited response 4 = .error .tooLarge := by
  intro body response other
  have honest : response.HonestLength := by
    intro _ length announced
    exact (Option.some.inj announced).symm
  have otherHonest : other.HonestLength := by
    intro _ length announced
    cases announced
  obtain ⟨fitting, _, _, split, _⟩ := readBytesLimited_exact response 5 honest
  obtain ⟨_, exceeds, _⟩ := readBytesLimited_exact response 4 honest
  exact ⟨fitting rfl (by decide), split rfl other otherHonest rfl rfl rfl rfl, exceeds (by decide)⟩

/-! ### The attempt around it -/

/-- An attempt ends the same way however the body of the response is split. -/
theorem fireOnce_split (external : External) (cfg : Config) (state : AppState)
    (upstream : Upstream) (method : String) (id : Json) (response : HttpResponse)
    {first second : List Bytes} (same : first.flatten = second.flatten) (latencyMs : Rat)
    (now : Instant) :
    fireOnce external cfg state upstream method id
        (.ok { response with chunks := first.map .ok }) latencyMs now =
      fireOnce external cfg state upstream method id
        (.ok { response with chunks := second.map .ok }) latencyMs now := by
  have read : readBytesLimited { response with chunks := first.map .ok } cfg.maxResponseBodyBytes =
      readBytesLimited { response with chunks := second.map .ok } cfg.maxResponseBodyBytes := by
    simp only [readBytesLimited_eq, received_map_ok, firstError_map_ok, same]
  unfold fireOnce
  dsimp only
  rw [read]

end Disburse
