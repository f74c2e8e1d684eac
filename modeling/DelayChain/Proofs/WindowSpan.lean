import DelayChain.Proofs.Production
import DelayChain.Proofs.ProvingFailure
import DelayChain.Proofs.Settled

/-!
# The span of a window in words

A retarget subtracts the first time of a window from the last one, in words. The time between the two
leaves the signed words only where they lie on different sides of zero, and no check keeps a received block
from that. The block that ends a window passes with any time that there is a delay proof for; where the
proof is not bound to the time, that is every time, and only a window that begins at time zero is safe.
-/

set_option autoImplicit false
set_option relaxedAutoImplicit false

namespace DelayChain

namespace Difficulty

/-- The span of time is one that a signed word holds. -/
def IsWordSpan (span : Int) : Prop := -(greatestSpan : Int) - 1 ≤ span ∧ span ≤ greatestSpan

instance (span : Int) : Decidable (IsWordSpan span) := inferInstanceAs (Decidable (_ ∧ _))

private theorem isWordSpan_toInt (time : Int64) : IsWordSpan time.toInt := by
  have least := time.le_toInt
  have greatest := time.toInt_lt
  simp only [IsWordSpan, greatestSpan]
  omega

theorem toInt_sub {last first : Int64} (within : IsWordSpan (last.toInt - first.toInt)) :
    (last - first).toInt = last.toInt - first.toInt := by
  obtain ⟨least, most⟩ := within
  simp only [greatestSpan] at least most
  rw [Int64.toInt_sub]
  exact Int.bmod_eq_of_le (by omega) (by omega)

private theorem isWordSpan_sub_of_nonneg {last first : Int64} (hlast : 0 ≤ last) (hfirst : 0 ≤ first) :
    IsWordSpan (last.toInt - first.toInt) := by
  rw [Int64.le_iff_toInt_le, Int64.toInt_zero] at hlast hfirst
  obtain ⟨-, lastMost⟩ := isWordSpan_toInt last
  obtain ⟨-, firstMost⟩ := isWordSpan_toInt first
  constructor <;> omega

private theorem exists_not_isWordSpan_iff {first : Int64} :
    (∃ last : Int64, ¬IsWordSpan (last.toInt - first.toInt)) ↔ first ≠ 0 := by
  constructor
  · rintro ⟨last, far⟩ rfl
    rw [Int64.toInt_zero, Int.sub_zero] at far
    exact far (isWordSpan_toInt last)
  · intro nonzero
    have apart : first.toInt ≠ 0 := by
      rwa [← Int64.toInt_zero, Ne, Int64.toInt_inj]
    rcases Int.lt_or_gt_of_ne apart with before | behind
    · refine ⟨Int64.maxValue, ?_⟩
      simp only [IsWordSpan, greatestSpan, Int64.toInt_maxValue]
      omega
    · refine ⟨Int64.minValue, ?_⟩
      simp only [IsWordSpan, greatestSpan, Int64.toInt_minValue]
      omega

namespace Adjuster

theorem two_le_window (seconds : Int) (window : Nat) (cap : UInt32) :
    2 ≤ (of window seconds cap).window := Nat.le_max_right window 2

/-- The time between the first and the last of some blocks, however great it is. -/
def elapsed (times : List Int64) : Int :=
  (times.getLast?.getD 0).toInt - (times.head?.getD 0).toInt

private theorem isWordSpan_elapsed {times : List Int64} (since : ∀ time ∈ times, 0 ≤ time) :
    IsWordSpan (elapsed times) := by
  refine isWordSpan_sub_of_nonneg ?_ ?_
  · cases last : times.getLast? with
    | none => exact Int64.le_refl 0
    | some time => exact since time (List.mem_of_getLast? last)
  · cases head : times.head? with
    | none => exact Int64.le_refl 0
    | some time => exact since time (List.mem_of_head? head)

/-- There is a full window of times, and the newest one lasts from the first time to the last. -/
structure Spans (adjuster : Adjuster) (times : List Int64) (first last : Int64) : Prop where
  full : adjuster.window ≤ times.length
  begins : times[times.length - adjuster.window]? = some first
  ends : times.getLast? = some last

theorem Spans.exists_newestWindow {adjuster : Adjuster} {times : List Int64} {first last : Int64}
    (spans : adjuster.Spans times first last) :
    ∃ window, adjuster.newestWindow? times = some window ∧ window.head? = some first ∧
      window.getLast? = some last := by
  have within : times.length - adjuster.window < times.length :=
    (List.getElem?_eq_some_iff.mp spans.begins).1
  refine ⟨times.drop (times.length - adjuster.window), ?_, ?_, ?_⟩
  · rw [newestWindow?, if_neg (Nat.not_lt.mpr spans.full)]
  · rw [List.head?_drop, spans.begins]
  · rw [List.getLast?_drop, if_neg (Nat.not_le.mpr within), spans.ends]

theorem Spans.exists_elapsed_eq {adjuster : Adjuster} {times : List Int64} {first last : Int64}
    (spans : adjuster.Spans times first last) :
    ∃ window, adjuster.newestWindow? times = some window ∧
      elapsed window = last.toInt - first.toInt := by
  obtain ⟨window, newest, head, ends⟩ := spans.exists_newestWindow
  refine ⟨window, newest, ?_⟩
  rw [elapsed, head, ends]
  rfl

private theorem exists_newestWindow_concat {adjuster : Adjuster} {times : List Int64} {first : Int64}
    (full : adjuster.window ≤ times.length + 1)
    (head : times[times.length + 1 - adjuster.window]? = some first) (last : Int64) :
    ∃ window, adjuster.newestWindow? (times ++ [last]) = some window ∧
      elapsed window = last.toInt - first.toInt := by
  have begins : times.length + 1 - adjuster.window < times.length :=
    (List.getElem?_eq_some_iff.mp head).1
  have spans : adjuster.Spans (times ++ [last]) first last := by
    refine ⟨?_, ?_, List.getLast?_concat⟩
    · rwa [List.length_append, List.length_singleton]
    · rwa [List.length_append, List.length_singleton, List.getElem?_append_left begins]
  exact spans.exists_elapsed_eq

end Adjuster

end Difficulty

open Difficulty (IsWordSpan)

namespace Block

/-- The block at another time, finalized by a delay proof for it. -/
def restamp (block : Block) (hasher : Hasher) (timestamp : Int64) (proof : Delay.Proof) : Block :=
  { block with timestamp }.attach proof hasher

private theorem checkOn_rehearsed {initial schedule : Schedule} (parent : Block) (timestamp : Int64)
    (low : schedule.difficultyAt (parent.height + 1) ≤ 1) :
    (Node.rehearsal initial).rules.checkOn schedule parent (parent.rehearsed timestamp) =
      .ok () := by
  let child : Block := parent.rehearsed timestamp
  have standing : child.checkExtends parent = .ok () := checkExtends_eq_ok_iff.mpr ⟨rfl, rfl⟩
  have met : Hasher.Meets "0000" 1 := by decide
  have worked : child.checkWork (Node.rehearsal initial).rules.hasher
      (schedule.difficultyAt child.height) = .ok () := checkWork_eq_ok_iff.mpr ⟨rfl, low, met⟩
  have verified : Delay.verify (.rehearsal 1) (Bytes.ofText "0000")
      ⟨(Delay.Parameters.rehearsal 1).evaluate (Bytes.ofText "0000"), [], 1, 0⟩ = .ok () :=
    Delay.verify_of_midpoints_eq_ok (Delay.midpoints_of_short (by decide)) 0
  have delay : child.checkDelay (.rehearsal 1) .workHash = .ok () :=
    checkDelay_eq_ok_iff.mpr ⟨_, _, rfl, rfl, rfl, rfl, verified⟩
  exact Rules.checkOn_eq_ok_iff.mpr
    ⟨standing, Rules.check_eq_ok_iff.mpr ⟨worked, rfl, rfl, delay⟩⟩

end Block

namespace Rules

variable {rules : Rules} {schedule : Schedule} {parent block : Block} {workHash : String}

private theorem checkOn_restamp_iff (passed : rules.checkOn schedule parent block = .ok ())
    (mined : block.workHash = some workHash) (timestamp : Int64) (proof : Delay.Proof) :
    rules.checkOn schedule parent (block.restamp rules.hasher timestamp proof) = .ok () ↔
      Delay.verify rules.delay (rules.input.bytes workHash timestamp) proof = .ok () := by
  obtain ⟨standing, checked⟩ := checkOn_eq_ok_iff.mp passed
  obtain ⟨worked, -, requests, -⟩ := check_eq_ok_iff.mp checked
  have drawn : rules.input.ofBlock? (block.restamp rules.hasher timestamp proof) =
      some (rules.input.bytes workHash timestamp) := by
    rw [DelayInput.ofBlock?, show (block.restamp rules.hasher timestamp proof).workHash =
      some workHash from mined]
    rfl
  rw [checkOn_eq_ok_iff, check_eq_ok_iff, Block.checkDelay_eq_ok_iff]
  constructor
  · rintro ⟨-, -, -, -, other, bytes, attached, -, -, found, verified⟩
    obtain rfl : proof = other := Option.some.inj attached
    obtain rfl := Option.some.inj (drawn.symm.trans found)
    exact verified
  · intro verified
    exact ⟨standing, worked, rfl, requests, proof, _, rfl, rfl, rfl, drawn, verified⟩

end Rules

namespace Node

variable {node : Node} {chain : Chain} {block first : Block} {workHash : String}

/-- The retarget on the chain subtracts times that are too far apart for a signed word. -/
def SpanOverflows (node : Node) (chain : Chain) : Prop :=
  node.EndsWindow chain ∧ ∃ window,
    node.adjuster.newestWindow? (chain.accepted.map (·.timestamp)) = some window ∧
      ¬IsWordSpan (Difficulty.Adjuster.elapsed window)

/-- The first block of the window that the next block ends. -/
def windowHead? (node : Node) (chain : Chain) : Option Block :=
  chain.accepted[chain.accepted.length + 1 - node.adjuster.window]?

/-- The block joins the chain with some time and a delay proof for it, and the retarget behind it
overflows. -/
def Exposed (node : Node) (chain : Chain) (block : Block) : Prop :=
  ∃ timestamp proof,
    let stamped := block.restamp node.rules.hasher timestamp proof
    (node.accept chain stamped).2.2 = chain.push stamped ∧ node.SpanOverflows (chain.push stamped)

private theorem not_spanOverflows (since : ∀ block ∈ chain.accepted, 0 ≤ block.timestamp) :
    ¬node.SpanOverflows chain := by
  rintro ⟨-, window, newest, far⟩
  refine far (Difficulty.Adjuster.isWordSpan_elapsed ?_)
  intro time member
  rw [Difficulty.Adjuster.newestWindow?, Option.ite_none_left_eq_some, Option.some.injEq] at newest
  obtain ⟨-, rfl⟩ := newest
  obtain ⟨block, among, rfl⟩ := List.mem_map.mp (List.mem_of_mem_drop member)
  exact since block among

private theorem endsWindow_push_iff :
    node.EndsWindow (chain.push block) ↔
      (chain.accepted.length + 1) % node.adjuster.window = 0 := by
  rw [EndsWindow, Chain.length_push, ← List.length_pos_iff_ne_nil, Chain.length_push]
  exact and_iff_right (Nat.succ_pos _)

private theorem exists_windowHead (wide : 2 ≤ node.adjuster.window)
    (ends : node.EndsWindow (chain.push block)) :
    ∃ first, node.windowHead? chain = some first := by
  have full : node.adjuster.window ≤ chain.accepted.length + 1 :=
    Nat.le_of_dvd (Nat.succ_pos _) (Nat.dvd_of_mod_eq_zero (endsWindow_push_iff.mp ends))
  exact ⟨_, List.getElem?_eq_getElem (by omega)⟩

private theorem spanOverflows_push_iff (ends : node.EndsWindow (chain.push block))
    (head : node.windowHead? chain = some first) (other : Block) :
    node.SpanOverflows (chain.push other) ↔
      ¬IsWordSpan (other.timestamp.toInt - first.timestamp.toInt) := by
  have closes := endsWindow_push_iff.mp ends
  have full : node.adjuster.window ≤ (chain.accepted.map (·.timestamp)).length + 1 := by
    rw [List.length_map]
    exact Nat.le_of_dvd (Nat.succ_pos _) (Nat.dvd_of_mod_eq_zero closes)
  have stamp : (chain.accepted.map (·.timestamp))[(chain.accepted.map (·.timestamp)).length + 1 -
      node.adjuster.window]? = some first.timestamp := by
    rw [List.length_map, List.getElem?_map]
    exact congrArg (Option.map (·.timestamp)) head
  obtain ⟨window, newest, taken⟩ :=
    Difficulty.Adjuster.exists_newestWindow_concat full stamp other.timestamp
  have times : (chain.push other).accepted.map (·.timestamp) =
      chain.accepted.map (·.timestamp) ++ [other.timestamp] := by
    rw [Chain.push, List.map_append, List.map_singleton]
  rw [SpanOverflows, times, newest, ← taken]
  constructor
  · rintro ⟨-, found, same, far⟩
    rwa [Option.some.inj same]
  · intro far
    exact ⟨endsWindow_push_iff.mpr closes, window, rfl, far⟩

private theorem chain_accept_eq_push_iff :
    (node.accept chain block).2.2 = chain.push block ↔
      node.rules.checkOn node.schedule chain.tip block = .ok () := by
  refine ⟨fun joined => ?_, chain_accept_of_checkOn⟩
  cases verdict : node.rules.checkOn node.schedule chain.tip block with
  | ok => rfl
  | error reason =>
    rw [accept_of_checkOn_eq_error verdict] at joined
    exact absurd joined.symm Chain.push_ne_self

private theorem exposed_iff (passed : node.rules.checkOn node.schedule chain.tip block = .ok ())
    (mined : block.workHash = some workHash) (ends : node.EndsWindow (chain.push block))
    (head : node.windowHead? chain = some first) :
    node.Exposed chain block ↔
      ∃ timestamp proof, ¬IsWordSpan (timestamp.toInt - first.timestamp.toInt) ∧
        Delay.verify node.rules.delay (node.rules.input.bytes workHash timestamp) proof = .ok () := by
  have version : ∀ timestamp proof,
      let stamped := block.restamp node.rules.hasher timestamp proof
      ((node.accept chain stamped).2.2 = chain.push stamped ∧
          node.SpanOverflows (chain.push stamped)) ↔
        ¬IsWordSpan (timestamp.toInt - first.timestamp.toInt) ∧
          Delay.verify node.rules.delay (node.rules.input.bytes workHash timestamp) proof =
            .ok () := by
    intro timestamp proof stamped
    rw [chain_accept_eq_push_iff, Rules.checkOn_restamp_iff passed mined,
      spanOverflows_push_iff ends head, and_comm]
    rfl
  exact exists_congr fun timestamp => exists_congr fun proof => version timestamp proof

private theorem exposed_iff_of_workHash
    (passed : node.rules.checkOn node.schedule chain.tip block = .ok ())
    (mined : block.workHash = some workHash) (ends : node.EndsWindow (chain.push block))
    (head : node.windowHead? chain = some first) (unbound : node.rules.input = .workHash) :
    node.Exposed chain block ↔ first.timestamp ≠ 0 := by
  obtain ⟨-, checked⟩ := Rules.checkOn_eq_ok_iff.mp passed
  obtain ⟨-, -, -, delay⟩ := Rules.check_eq_ok_iff.mp checked
  obtain ⟨proof, bytes, -, -, -, drawn, verified⟩ := Block.checkDelay_eq_ok_iff.mp delay
  rw [DelayInput.ofBlock?, mined, Option.map_some, Option.some.injEq] at drawn
  rw [exposed_iff passed mined ends head, ← Difficulty.exists_not_isWordSpan_iff]
  constructor
  · rintro ⟨timestamp, -, far, -⟩
    exact ⟨timestamp, far⟩
  · rintro ⟨timestamp, far⟩
    refine ⟨timestamp, proof, far, ?_⟩
    rw [← drawn, unbound] at verified
    rwa [unbound]

private theorem exposed_of_coprime (passed : node.rules.checkOn node.schedule chain.tip block = .ok ())
    (mined : block.workHash = some workHash) (ends : node.EndsWindow (chain.push block))
    (head : node.windowHead? chain = some first) (form : node.rules.delay.modulus % 4 = 1)
    {timestamp : Int64} (far : ¬IsWordSpan (timestamp.toInt - first.timestamp.toInt))
    (unit : Nat.Coprime
      (node.rules.delay.elementOf (node.rules.input.bytes workHash timestamp))
      node.rules.delay.modulus) :
    node.Exposed chain block := by
  obtain ⟨mus, found⟩ := Delay.exists_midpoints_of_coprime form unit
    (node.rules.delay.evaluate (node.rules.input.bytes workHash timestamp))
  rw [exposed_iff passed mined ends head]
  exact ⟨timestamp, _, far, Delay.verify_of_midpoints_eq_ok found 0⟩

end Node

namespace Session

/-- With times since zero only, no retarget of a run overflows, but nothing in a run keeps the times there.
The block that ends a window can overflow the retarget, at some time that it joins with, exactly if there
is a delay proof for a time too far from the head of the window. Where the proof is not bound to the time,
that is so unless the head has time zero; where it is bound, at least if the prover does not fail there. -/
theorem overflow_behind_far_times (rules : Rules) (window : Nat) (seconds : Int) (cap : UInt32)
    (maxRequests : Nat) (schedule : Schedule) (genesis : Block) {operations : List Operation}
    {session : Session}
    (ran : (start (.start rules (.of window seconds cap) maxRequests schedule) genesis).run?
      operations = some session) :
    ((∀ block ∈ session.chain.accepted, 0 ≤ block.timestamp) →
      ¬session.node.SpanOverflows session.chain) ∧
    ∀ block, rules.checkOn session.node.schedule session.chain.tip block = .ok () →
      session.node.EndsWindow (session.chain.push block) →
      let input (timestamp : Int64) : Bytes :=
        rules.input.bytes (block.computeWorkHash rules.hasher) timestamp
      ∃ first, session.node.windowHead? session.chain = some first ∧
        (session.node.Exposed session.chain block ↔
          ∃ timestamp proof, ¬IsWordSpan (timestamp.toInt - first.timestamp.toInt) ∧
            Delay.verify rules.delay (input timestamp) proof = .ok ()) ∧
        (rules.input = .workHash →
          (session.node.Exposed session.chain block ↔ first.timestamp ≠ 0)) ∧
        (rules.delay.modulus % 4 = 1 → ∀ timestamp : Int64,
          ¬IsWordSpan (timestamp.toInt - first.timestamp.toInt) →
          Nat.Coprime (rules.delay.elementOf (input timestamp)) rules.delay.modulus →
            session.node.Exposed session.chain block) := by
  have settled := (settled_start _ genesis).run ran
  have same : session.node.rules = rules := settled.rules
  have adjuster : session.node.adjuster = .of window seconds cap := settled.agrees.adjuster
  refine ⟨Node.not_spanOverflows, ?_⟩
  intro block passed ends input
  obtain ⟨-, checked⟩ := Rules.checkOn_eq_ok_iff.mp passed
  obtain ⟨worked, -⟩ := Rules.check_eq_ok_iff.mp checked
  obtain ⟨mined, -⟩ := Block.checkWork_eq_ok_iff.mp worked
  have wide : 2 ≤ session.node.adjuster.window := by
    rw [adjuster]
    exact Difficulty.Adjuster.two_le_window seconds window cap
  obtain ⟨first, head⟩ := Node.exists_windowHead wide ends
  subst same
  exact ⟨first, head, Node.exposed_iff passed mined ends head,
    Node.exposed_iff_of_workHash passed mined ends head,
    fun form _ far unit => Node.exposed_of_coprime passed mined ends head form far unit⟩

/-- A window of two blocks whose first has time one. -/
theorem overflow_behind_far_times_from_one :
    ∃ operations session first block,
      (start (.rehearsal (.constant 1)) Block.genesis).run? operations = some session ∧
        session.node.rules.checkOn session.node.schedule session.chain.tip block = .ok () ∧
        session.node.EndsWindow (session.chain.push block) ∧
        session.node.windowHead? session.chain = some first ∧ first.timestamp = 1 ∧
        session.node.Exposed session.chain block := by
  let node : Node := .rehearsal (.constant 1)
  let first : Block := .rehearsed Block.genesis 1
  let second : Block := .rehearsed first 1
  let lone : Chain := (Chain.ofGenesis Block.genesis).push first
  have steady : node.scheduleOn lone = .constant 1 := by decide +kernel
  have passed : node.rules.checkOn node.schedule Block.genesis first = .ok () :=
    Block.checkOn_rehearsed Block.genesis 1 (UInt32.le_refl 1)
  have passed' : node.rules.checkOn (.constant 1) first second = .ok () :=
    Block.checkOn_rehearsed first 1 (UInt32.le_refl 1)
  have taken : node.TakesUp Block.genesis lone := .push .foot passed (by decide) (by decide)
  obtain ⟨session, ran, chain, schedule⟩ := exists_run_of_takesUp taken
  have settled := (settled_start node Block.genesis).run ran
  have rules : session.node.rules = node.rules := settled.rules
  have adjuster : session.node.adjuster = node.adjuster := settled.agrees.adjuster
  have tip : session.chain.tip = first := by rw [chain, Chain.tip_push]
  have ends : session.node.EndsWindow (session.chain.push second) := by
    have length : lone.accepted.length = 1 := rfl
    have window : node.adjuster.window = 2 := rfl
    rw [Node.endsWindow_push_iff, chain, adjuster, length, window]
  have head : session.node.windowHead? session.chain = some first := by
    rw [Node.windowHead?, chain, adjuster]
    rfl
  rw [← steady, ← schedule, ← tip] at passed'
  obtain ⟨-, closing⟩ := overflow_behind_far_times node.rules 2 600 4 3 (.constant 1)
    Block.genesis ran
  obtain ⟨begins, found, -, unbound, -⟩ := closing second passed' ends
  obtain rfl : first = begins := Option.some.inj (head.symm.trans found)
  have exposed : session.node.Exposed session.chain second := (unbound rfl).mpr (by decide)
  rw [← rules] at passed'
  exact ⟨_, session, first, second, ran, passed', ends, head, rfl, exposed⟩

end Session

end DelayChain
