import DelayChain.Proofs.Preimages
import DelayChain.Proofs.Settled

/-!
# Schedules behind equal block hashes

The block hash covers no timestamp, and the schedule follows the pace of the blocks. Nodes of one
configuration that hold chains of the same hashes thus agree on the schedule unless timestamps differ.
Where the delay proof is bound to the time, that takes a collision, or a proof of two inputs.
-/

set_option autoImplicit false
set_option relaxedAutoImplicit false

namespace DelayChain

private theorem DelayInput.eq_of_bytes_eq {workHash : String} {timestamp timestamp' : Int64}
    (same : bytes .workHashAndTime workHash timestamp =
      bytes .workHashAndTime workHash timestamp') : timestamp = timestamp' := by
  have texts := congrArg String.toList (Bytes.ofText_injective same)
  simp only [String.toList_append] at texts
  exact Int64.toInt.inj (Text.Numeral.eq_of_toString_eq (List.append_cancel_left texts))

/-- Two blocks of one hash show how it can stand for two times that the delay proof is bound to: by a
collision of block hashes or of fingerprints, or by a proof that passes for both times. -/
inductive Block.Confused (rules : Rules) (a b : Block) : Prop
  | hash (differ : a.preimage ≠ b.preimage)
      (same : a.computeHash rules.hasher = b.computeHash rules.hasher)
  | fingerprint (proof proof' : Delay.Proof) (attached : a.proof = some proof)
      (attached' : b.proof = some proof') (differ : proof.preimage ≠ proof'.preimage)
      (same : proof.fingerprint = proof'.fingerprint)
  | proof (workHash : String) (proof : Delay.Proof) (attached : a.proof = some proof)
      (attached' : b.proof = some proof)
      (differ : rules.input.bytes workHash a.timestamp ≠ rules.input.bytes workHash b.timestamp)
      (verified : Delay.verify rules.delay (rules.input.bytes workHash a.timestamp) proof = .ok ())
      (verified' : Delay.verify rules.delay (rules.input.bytes workHash b.timestamp) proof = .ok ())

namespace Rules

variable {rules : Rules} {schedule schedule' : Schedule} {parent parent' a b : Block}

private theorem confused_of_checkOn (passed : rules.checkOn schedule parent a = .ok ())
    (passed' : rules.checkOn schedule' parent' b = .ok ()) (hashes : a.hash = b.hash)
    (times : a.timestamp ≠ b.timestamp) (bound : rules.input = .workHashAndTime) :
    a.Confused rules b := by
  obtain ⟨-, checked⟩ := checkOn_eq_ok_iff.mp passed
  obtain ⟨worked, hash, -, delay⟩ := check_eq_ok_iff.mp checked
  obtain ⟨sealed, -⟩ := Block.checkWork_eq_ok_iff.mp worked
  obtain ⟨proof, bytes, attached, -, -, drawn, verified⟩ := Block.checkDelay_eq_ok_iff.mp delay
  obtain ⟨-, checked'⟩ := checkOn_eq_ok_iff.mp passed'
  obtain ⟨worked', hash', -, delay'⟩ := check_eq_ok_iff.mp checked'
  obtain ⟨sealed', -⟩ := Block.checkWork_eq_ok_iff.mp worked'
  obtain ⟨proof', bytes', attached', -, -, drawn', verified'⟩ :=
    Block.checkDelay_eq_ok_iff.mp delay'
  by_cases texts : a.preimage = b.preimage
  · obtain ⟨works, -, fingerprints⟩ := Block.eq_of_preimage_eq attached attached' texts
    by_cases proofs : proof.preimage = proof'.preimage
    · -- one work hash and one proof are left, under two times
      obtain rfl := Delay.Proof.preimage_injective proofs
      have workHash : b.computeWorkHash rules.hasher = a.computeWorkHash rules.hasher := by
        rw [Block.computeWorkHash, Block.computeWorkHash, works]
      rw [DelayInput.ofBlock?, sealed, Option.map_some, Option.some.injEq] at drawn
      rw [DelayInput.ofBlock?, sealed', workHash, Option.map_some, Option.some.injEq] at drawn'
      rw [← drawn] at verified
      rw [← drawn'] at verified'
      refine .proof _ proof attached attached' ?_ verified verified'
      intro same
      rw [bound] at same
      exact times (DelayInput.eq_of_bytes_eq same)
    · exact .fingerprint proof proof' attached attached' proofs fingerprints
  · exact .hash texts (by rw [← hash, ← hash', hashes])

private theorem checkOn_of_parts {workHash : String} (standing : b.checkExtends parent = .ok ())
    (work : b.computeWorkHash rules.hasher = workHash) (worked : b.workHash = some workHash)
    (least : schedule.difficultyAt b.height ≤ b.difficulty)
    (meets : Hasher.Meets workHash b.difficulty) (hash : b.computeHash rules.hasher = b.hash)
    (requests : rules.checkRequests b = .ok ())
    (delay : b.checkDelay rules.delay rules.input = .ok ()) :
    rules.checkOn schedule parent b = .ok () := by
  subst work
  have passes := Block.checkWork_eq_ok_iff.mpr ⟨worked, least, meets⟩
  exact checkOn_eq_ok_iff.mpr ⟨standing, check_eq_ok_iff.mpr ⟨passes, hash.symm, requests, delay⟩⟩

private theorem checkOn_of_timestamp {timestamp : Int64}
    (passed : rules.checkOn schedule parent b = .ok ())
    (delay : { b with timestamp }.checkDelay rules.delay rules.input = .ok ()) :
    rules.checkOn schedule parent { b with timestamp } = .ok () := by
  obtain ⟨standing, checked⟩ := checkOn_eq_ok_iff.mp passed
  obtain ⟨worked, hash, requests, -⟩ := check_eq_ok_iff.mp checked
  exact checkOn_eq_ok_iff.mpr ⟨standing, check_eq_ok_iff.mpr ⟨worked, hash, requests, delay⟩⟩

end Rules

private theorem forall_mem_zip_of_map_eq {α : Type} {f : Block → α} {blocks blocks' : List Block}
    (same : blocks.map f = blocks'.map f) : ∀ pair ∈ blocks.zip blocks', f pair.1 = f pair.2 := by
  have pairs : List.Forall₂ (fun a b => f a = f b) blocks blocks' := by
    rw [← List.forall₂_map_right_iff, ← List.forall₂_map_left_iff, same, List.forall₂_eq_eq_eq]
  intro pair member
  exact (List.forall₂_iff_zip.mp pairs).2 member

private theorem exists_mem_zip_of_map_ne {α : Type} {f : Block → α} {blocks blocks' : List Block}
    (length : blocks.length = blocks'.length) (differ : blocks.map f ≠ blocks'.map f) :
    ∃ pair ∈ blocks.zip blocks', f pair.1 ≠ f pair.2 := by
  by_contra none
  have pairs : List.Forall₂ (fun a b => f a = f b) blocks blocks' := by
    refine List.forall₂_iff_zip.mpr ⟨length, fun {a b} member => ?_⟩
    by_contra other
    exact none ⟨(a, b), member, other⟩
  rw [← List.forall₂_map_right_iff, ← List.forall₂_map_left_iff, List.forall₂_eq_eq_eq] at pairs
  exact differ pairs

namespace Session

variable {node node' : Node} {genesis : Block} {operations operations' : List Operation}
  {session session' : Session}

private theorem schedule_eq_of_paces (agrees : node.Agrees node')
    (ran : (start node genesis).run? operations = some session)
    (ran' : (start node' genesis).run? operations' = some session')
    (length : session.chain.accepted.length = session'.chain.accepted.length)
    (paces : ∀ count, node.EndsWindow (session.chain.upTo count) →
      node.pace? (session'.chain.upTo count) = node.pace? (session.chain.upTo count)) :
    session.node.schedule = session'.node.schedule := by
  have settled := (settled_start node genesis).run ran
  have settled' := (settled_start node' genesis).run ran'
  have linked := ((sound_start node genesis).run ran).linked.imp
    fun _ _ follows => Rules.height_of_checkOn follows
  have linked' := ((sound_start node' genesis).run ran').linked.imp
    fun _ _ follows => Rules.height_of_checkOn follows
  rw [settled.schedule, settled'.schedule, Node.scheduleOn, Node.scheduleOn, length]
  refine (Node.scheduleAfter_congr agrees (by omega) (by omega) ?_ fun count _ => paces count).symm
  intro count within
  rw [Chain.height_upTo linked (by omega), Chain.height_upTo linked' (by omega), settled.genesis,
    settled'.genesis]

private theorem confused_of_mem_zip (agrees : node.Agrees node')
    (ran : (start node genesis).run? operations = some session)
    (ran' : (start node' genesis).run? operations' = some session') {pair : Block × Block}
    (member : pair ∈ session.chain.accepted.zip session'.chain.accepted)
    (hash : pair.1.hash = pair.2.hash) (apart : pair.1.timestamp ≠ pair.2.timestamp)
    (bound : node.rules.input = .workHashAndTime) : pair.1.Confused node.rules pair.2 := by
  have settled := (settled_start node genesis).run ran
  have settled' := (settled_start node' genesis).run ran'
  obtain ⟨first, second⟩ := List.of_mem_zip member
  obtain ⟨parent, follows⟩ :=
    Chain.exists_parent_of_mem ((sound_start node genesis).run ran).linked first
  obtain ⟨parent', follows'⟩ :=
    Chain.exists_parent_of_mem ((sound_start node' genesis).run ran').linked second
  rw [Node.Follows, settled.rules] at follows
  rw [Node.Follows, settled'.rules, agrees.rules] at follows'
  exact Rules.confused_of_checkOn follows follows' hash apart bound

end Session

/-- A node for rehearsals with SHA-256 as hasher, and with a group so small that different inputs come
to have the same output. -/
def Node.narrow (input : DelayInput) : Node :=
  let wide := rehearsal (.constant 1)
  let delay : Delay.Parameters :=
    { wide.rules.delay with
      modulus := 53 * 61
      one_lt_modulus := by decide
      modulus_odd := by decide }
  { wide with rules := { hasher := Hasher.sha256, delay, input, senders := none } }

/-- A block at difficulty one, without requests, with a delay proof of one squaring. -/
def Block.slight (height : UInt64) (parent : String) (timestamp : Int64) (nonce : UInt64)
    (workHash : String) (output : Nat) (hash : String) : Block where
  height
  parent := some parent
  requests := []
  hash
  timestamp
  nonce
  difficulty := 1
  workHash := some workHash
  proof := some ⟨output, [], 1, 0⟩
  time := 1
  finalized := true

namespace Session

/-- In either mode one node can come to chains of the same hashes and to different schedules: the second
block of a window passes with two times, of which one ends a fast window and the other a slow one. -/
private theorem exists_fork (input : DelayInput) :
    ∃ operations operations' session session',
      (start (.narrow input) Block.genesis).run? operations = some session ∧
        (start (.narrow input) Block.genesis).run? operations' = some session' ∧
        session.chain.blocks.map (·.hash) = session'.chain.blocks.map (·.hash) ∧
        session.node.schedule = ⟨1, [(3, 2)]⟩ ∧ session'.node.schedule = ⟨1, []⟩ := by
  let workHash := "00ba9496100d948d7970faee8d301b70961830357e116a20a1c99c51c03a76f0"
  let workHash' := "0f460906097578c3dfc4b862828083389144f8ecba582cbb9cc6633c358895f7"
  let first : Block := .slight 1 "485849694ad7acf3a941897798c370942112f110950007996915031290718142"
    243 39 workHash 188 "35242f934442239464e66c4c906de25cf84948e1550eb54cd6f875625ab5997c"
  let second : Block := .slight 2 first.hash
    982 6 workHash' 1341 "2f75686f9d86826bf958085cbc061a80f4b3ea15196dd2b53a0bcd6c5b8ab6f7"
  let late : Block := { second with timestamp := 1200261 }
  let lone : Chain := (Chain.ofGenesis Block.genesis).push first
  have delays : ∀ block ∈ [first, second, late],
      block.checkDelay (Node.narrow input).rules.delay input = .ok () := by
    cases input with
    | workHash => decide +kernel
    | workHashAndTime => decide +kernel
  have passed : (Node.narrow input).rules.checkOn (.constant 1) Block.genesis first = .ok () := by
    have standing : first.checkExtends Block.genesis = .ok () := by decide +kernel
    have work : first.computeWorkHash Hasher.sha256 = workHash := by decide +kernel
    have hash : first.computeHash Hasher.sha256 = first.hash := by decide +kernel
    have delay := delays first (by simp)
    exact Rules.checkOn_of_parts standing work rfl (by decide) (by decide) hash rfl delay
  have passed' : (Node.narrow input).rules.checkOn (.constant 1) first second = .ok () := by
    have work : second.computeWorkHash Hasher.sha256 = workHash' := by decide +kernel
    have hash : second.computeHash Hasher.sha256 = second.hash := by decide +kernel
    have delay := delays second (by simp)
    exact Rules.checkOn_of_parts rfl work rfl (by decide) (by decide) hash rfl delay
  have passedLate := Rules.checkOn_of_timestamp passed' (delays late (by simp))
  have taken : (Node.narrow input).TakesUp Block.genesis lone :=
    .push .foot passed (by decide +kernel) (by decide +kernel)
  have fast : (Node.narrow input).TakesUp Block.genesis (lone.push second) :=
    .push taken passed' (by decide +kernel) (by decide +kernel)
  have slow : (Node.narrow input).TakesUp Block.genesis (lone.push late) :=
    .push taken passedLate (by decide +kernel) (by decide +kernel)
  obtain ⟨session, ran, chain, schedule⟩ := exists_run_of_takesUp fast
  obtain ⟨session', ran', chain', schedule'⟩ := exists_run_of_takesUp slow
  refine ⟨_, _, session, session', ran, ran', ?_, ?_, ?_⟩
  · rw [chain, chain']
    rfl
  · rw [schedule]
    cases input <;> decide +kernel
  · rw [schedule']
    cases input <;> decide +kernel

/-- Two nodes of one configuration that come to chains of the same hashes hold one schedule, unless
the chains have gone at different paces over a full window. Some block then has different timestamps
in the two chains; where the delay proof is bound to the time, the two versions are confused. -/
theorem schedule_eq_unless {node node' : Node} (agrees : node.Agrees node') {genesis : Block}
    {operations operations' : List Operation} {session session' : Session}
    (ran : (start node genesis).run? operations = some session)
    (ran' : (start node' genesis).run? operations' = some session')
    (hashes : session.chain.blocks.map (·.hash) = session'.chain.blocks.map (·.hash)) :
    session.node.schedule = session'.node.schedule ∨
      ∃ count, node.EndsWindow (session.chain.upTo count) ∧
        node.pace? (session'.chain.upTo count) ≠ node.pace? (session.chain.upTo count) ∧
        ∃ pair ∈ session.chain.accepted.zip session'.chain.accepted,
          pair.1.timestamp ≠ pair.2.timestamp ∧
          (node.rules.input = .workHashAndTime → pair.1.Confused node.rules pair.2) := by
  obtain ⟨-, accepted⟩ := List.cons.inj hashes
  have length : session.chain.accepted.length = session'.chain.accepted.length := by
    simpa using congrArg List.length accepted
  by_cases paces : ∀ count, node.EndsWindow (session.chain.upTo count) →
      node.pace? (session'.chain.upTo count) = node.pace? (session.chain.upTo count)
  · exact Or.inl (schedule_eq_of_paces agrees ran ran' length paces)
  · right
    obtain ⟨count, uneven⟩ := not_forall.mp paces
    obtain ⟨ends, differ⟩ := Classical.not_imp.mp uneven
    have times : session.chain.accepted.map (·.timestamp) ≠
        session'.chain.accepted.map (·.timestamp) := by
      intro same
      refine differ ?_
      simp only [Node.pace?, Chain.upTo, List.map_take, same]
    obtain ⟨pair, member, apart⟩ := exists_mem_zip_of_map_ne length times
    have hash := forall_mem_zip_of_map_eq accepted pair member
    exact ⟨count, ends, differ, pair, member, apart,
      confused_of_mem_zip agrees ran ran' member hash apart⟩

/-- Two runs that part over the time of one block, which the delay proof is bound to. -/
theorem schedule_eq_unless_confused :
    ∃ operations operations' session session',
      (start (.narrow .workHashAndTime) Block.genesis).run? operations = some session ∧
        (start (.narrow .workHashAndTime) Block.genesis).run? operations' = some session' ∧
        session.chain.blocks.map (·.hash) = session'.chain.blocks.map (·.hash) ∧
        session.node.schedule ≠ session'.node.schedule ∧
        ∃ pair ∈ session.chain.accepted.zip session'.chain.accepted,
          pair.1.timestamp ≠ pair.2.timestamp ∧
            pair.1.Confused (Node.narrow .workHashAndTime).rules pair.2 := by
  obtain ⟨operations, operations', session, session', ran, ran', hashes, fast, slow⟩ :=
    exists_fork .workHashAndTime
  have differ : session.node.schedule ≠ session'.node.schedule := by
    rw [fast, slow]
    decide
  refine ⟨operations, operations', session, session', ran, ran', hashes, differ, ?_⟩
  rcases schedule_eq_unless (.refl _) ran ran' hashes with same | parted
  · exact absurd same differ
  · obtain ⟨-, -, -, pair, member, times, confused⟩ := parted
    exact ⟨pair, member, times, confused rfl⟩

/-- In neither mode do the hashes of a chain determine the schedule, though the hasher is SHA-256. -/
theorem not_schedule_of_hashes :
    ¬∃ input : DelayInput, ∀ (node node' : Node) (genesis : Block)
      (operations operations' : List Operation) (session session' : Session),
      node.rules.hasher = Hasher.sha256 → node.rules.input = input → node.Agrees node' →
      (start node genesis).run? operations = some session →
      (start node' genesis).run? operations' = some session' →
      session.chain.blocks.map (·.hash) = session'.chain.blocks.map (·.hash) →
        session.node.schedule.entries = session'.node.schedule.entries := by
  rintro ⟨input, determined⟩
  obtain ⟨operations, operations', session, session', ran, ran', hashes, fast, slow⟩ :=
    exists_fork input
  have same := determined (.narrow input) (.narrow input) Block.genesis operations operations' session
    session' rfl rfl (.refl _) ran ran' hashes
  rw [fast, slow] at same
  exact absurd same (by decide)

end Session

end DelayChain
