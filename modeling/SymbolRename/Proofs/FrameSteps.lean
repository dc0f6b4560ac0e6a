import SymbolRename.Proofs.BrokenStreams
import SymbolRename.Server

/-! # The steps of a server take frames

A server reads a line or a body at a time.  Behind a line of a header it demands the next one,
until the header is whole; then it makes room for the body, and only then it demands the body.  By
induction over the lines, all these steps together take the first frame off the input, or find out
that there is none (`Server.run_line`): what a run comes to depends on `Frame.readHeader` alone,
and on the memory that there is for the length that a header tells.
-/
namespace SymbolRename

namespace Frame

/-- The length of a body that was told and did not come. -/
def Error.length? : Error → Option Nat
  | .bodyCutShort n => some n
  | .headerNotUtf8 => none

theorem splitLine_ne_nil (b : UInt8) (bytes : Bytes) : (splitLine (b :: bytes)).1 ≠ [] := by
  rw [splitLine]
  split <;> exact List.cons_ne_nil _ _

end Frame

namespace Server

variable {disk : Disk} {memory : Memory} {s : Server}

/-! ## One step -/

theorem run_of_ends {demand : Demand} {input : Bytes} {ending : Ending}
    (h : s.step disk memory demand (demand.cut input).1 = .ends ending) :
    s.run disk memory demand input = ⟨[], ending⟩ := by
  rw [run]
  split <;> simp_all

theorem run_of_goesOn {demand next : Demand} {input : Bytes} {server : Server}
    {response : Option Response}
    (h : s.step disk memory demand (demand.cut input).1 = .goesOn server response next) :
    s.run disk memory demand input =
      let outcome := server.run disk memory next (demand.cut input).2
      ⟨response.toList ++ outcome.responses, outcome.ending⟩ := by
  rw [run]
  split <;> simp_all

/-! ## One frame -/

/-- What a run comes to that has taken a body off its input. -/
def afterBody (disk : Disk) (memory : Memory) (s : Server) (body rest : Bytes) : Outcome :=
  let reaction := s.receiveBody disk body
  if reaction.exits then ⟨[], .exit reaction.server.exitCode⟩
  else
    let outcome := reaction.server.run disk memory (.line none) rest
    ⟨reaction.response.toList ++ outcome.responses, outcome.ending⟩

/-- What a run comes to, by what stands in front of its input. -/
def afterReading (disk : Disk) (memory : Memory) (s : Server) : Frame.Reading → Outcome
  | .closed => ⟨[], .exit s.exitCode⟩
  | .failed error => ⟨[], (error.length?.bind memory.failure?).getD (.exit 1)⟩
  | .frame body rest =>
    (memory.failure? body.length).elim (s.afterBody disk memory body rest) fun ending => ⟨[], ending⟩

variable {n : Nat} {input : Bytes}

theorem run_short_body (h : input.length < n) :
    s.run disk memory (.body n) input = ⟨[], .exit 1⟩ := by
  have hshort : (input.take n).length < n := by
    rw [List.length_take]
    omega
  exact run_of_ends (if_pos hshort)

theorem run_whole_body (h : n ≤ input.length) :
    s.run disk memory (.body n) input = s.afterBody disk memory (input.take n) (input.drop n) := by
  have hwhole : ¬(input.take n).length < n := by
    rw [List.length_take_of_le h]
    omega
  have hstep : s.step disk memory (.body n) (input.take n) =
      let reaction := s.receiveBody disk (input.take n)
      if reaction.exits then .ends (.exit reaction.server.exitCode)
      else .goesOn reaction.server reaction.response (.line none) := if_neg hwhole
  rw [afterBody]
  by_cases hexits : (s.receiveBody disk (input.take n)).exits = true
  · rw [run_of_ends (hstep.trans (if_pos hexits))]
    exact (if_pos hexits).symm
  · rw [run_of_goesOn (hstep.trans (if_neg hexits))]
    exact (if_neg hexits).symm

/-- Where there is room for a body, it is taken whole or not at all. -/
theorem run_body (hroom : memory.failure? n = none) (s : Server) (input : Bytes) :
    s.run disk memory (.body n) input = s.afterReading disk memory (Frame.takeBody n input) := by
  rw [Frame.takeBody]
  split
  · rename_i hshort
    rw [run_short_body hshort, afterReading, Frame.Error.length?, Option.bind_some, hroom]
    rfl
  · rename_i hwhole
    have hle : n ≤ input.length := Nat.le_of_not_lt hwhole
    rw [run_whole_body hle, afterReading, List.length_take_of_le hle, hroom]
    rfl

/-- Where there is no room for a body, it makes no difference what is left of the input. -/
theorem afterReading_takeBody {ending : Ending} (hrefused : memory.failure? n = some ending)
    (s : Server) (input : Bytes) :
    s.afterReading disk memory (Frame.takeBody n input) = ⟨[], ending⟩ := by
  rw [Frame.takeBody]
  split
  · rw [afterReading, Frame.Error.length?, Option.bind_some, hrefused]
    rfl
  · rename_i hwhole
    rw [afterReading, List.length_take_of_le (Nat.le_of_not_lt hwhole), hrefused]
    rfl

/-- **The steps of a run take a frame**, whatever the lines of its header are.  The induction
follows the reader of headers. -/
theorem run_line (s : Server) (length : Option Nat) (input : Bytes) :
    s.run disk memory (.line length) input =
      s.afterReading disk memory (Frame.readHeader length input) := by
  fun_induction Frame.readHeader length input with
  | case1 length => exact run_of_ends rfl
  | case2 length b bytes _ n hline =>
    cases hroom : memory.failure? n with
    | none =>
      have hstep : s.step disk memory (.line length) (Frame.splitLine (b :: bytes)).1 =
          .goesOn s none (.body n) := by
        rw [step, if_neg (Frame.splitLine_ne_nil b bytes), hline]
        dsimp only
        rw [hroom]
      rw [run_of_goesOn hstep]
      exact run_body hroom s _
    | some ending =>
      have hstep : s.step disk memory (.line length) (Frame.splitLine (b :: bytes)).1 =
          .ends ending := by
        rw [step, if_neg (Frame.splitLine_ne_nil b bytes), hline]
        dsimp only
        rw [hroom]
      rw [run_of_ends hstep, afterReading_takeBody hroom]
  | case3 length b bytes _ length' hline ih =>
    have hstep : s.step disk memory (.line length) (Frame.splitLine (b :: bytes)).1 =
        .goesOn s none (.line length') := by
      rw [step, if_neg (Frame.splitLine_ne_nil b bytes), hline]
    rw [run_of_goesOn hstep]
    exact ih
  | case4 length b bytes _ error hline =>
    have hstep : s.step disk memory (.line length) (Frame.splitLine (b :: bytes)).1 =
        .ends (.exit 1) := by
      rw [step, if_neg (Frame.splitLine_ne_nil b bytes), hline]
    -- Only a line that is no text fails, and no length is told by it.
    rw [run_of_ends hstep, (Frame.headerLine_eq_failed_iff.mp hline).1]
    rfl

end Server

end SymbolRename
