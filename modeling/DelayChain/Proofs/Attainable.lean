import DelayChain.Node.Config
import DelayChain.Proofs.ScheduleShape
import DelayChain.Proofs.Text

/-!
# Which difficulties can be met

No digest begins with more zeros than it has digits. A schedule that demands more is met by no nonce and
passed by no block: a node whose settings begin there never leaves its genesis block, and one that is
raised there, behind a block with nothing but zeros, never leaves that block.
-/

set_option autoImplicit false
set_option relaxedAutoImplicit false

namespace DelayChain

namespace Hasher

variable {digest : String} {difficulty : UInt32} {width : Nat}

def HasWidth (hasher : Hasher) (width : Nat) : Prop := ∀ preimage, (hasher preimage).length = width

private theorem hasWidth_sha256 : sha256.HasWidth 64 := fun _ => Hash.Sha256.length_hex _

/-- The digest of nothing but zeros. -/
def zeros (width : Nat) : String := String.ofList (List.replicate width '0')

private theorem length_zeros : (zeros width).length = width := by
  rw [zeros, String.length_ofList, List.length_replicate]

private theorem leadingZeros_zeros : leadingZeros (zeros width) = width := by
  rw [leadingZeros, zeros, String.toList_ofList]
  simp

private theorem leadingZeros_le_length (digest : String) : leadingZeros digest ≤ digest.length := by
  rw [leadingZeros, ← String.length_toList]
  exact (List.takeWhile_prefix _).length_le

private theorem eq_zeros_of_length_le (through : digest.length ≤ leadingZeros digest) :
    digest = zeros digest.length := by
  have front : digest.toList.takeWhile (· == '0') <+: digest.toList := List.takeWhile_prefix _
  rw [leadingZeros, ← String.length_toList] at through
  have all := front.eq_of_length (Nat.le_antisymm front.length_le through)
  have zero : ∀ c ∈ digest.toList, c = '0' := by
    intro c member
    rw [← all] at member
    exact beq_iff_eq.mp (List.all_eq_true.mp List.all_takeWhile c member)
  rw [zeros, ← String.length_toList, ← List.eq_replicate_of_mem zero, String.ofList_toList]

private theorem exists_meets_iff :
    (∃ digest : String, digest.length = width ∧ Meets digest difficulty) ↔
      difficulty.toNat ≤ width := by
  constructor
  · rintro ⟨digest, rfl, meets⟩
    exact Nat.le_trans meets (leadingZeros_le_length digest)
  · intro within
    refine ⟨zeros width, length_zeros, ?_⟩
    rw [Meets, leadingZeros_zeros]
    exact within

end Hasher

private theorem Search.from_eq_exhausted {digest : UInt64 → String} {difficulty : UInt32}
    (never : ∀ nonce, ¬Hasher.Meets (digest nonce) difficulty) (first : UInt64) :
    Search.from digest difficulty (fun _ => false) first = .exhausted :=
  from_eq_iff_ends.mpr (.exhausted fun nonce _ => ⟨never nonce, rfl⟩)

section Width

variable {width : Nat} {hasher : Hasher} {rules : Rules} {schedule : Schedule} {parent block : Block}
  {node : Node}

private theorem Block.search_eq_exhausted (wide : hasher.HasWidth width)
    (beyond : width < block.difficulty.toNat) :
    block.search hasher (fun _ => false) = .exhausted := by
  refine Search.from_eq_exhausted ?_ 0
  intro nonce meets
  have within := Hasher.exists_meets_iff.mp ⟨_, wide _, meets⟩
  omega

private theorem Node.propose_of_beyond (wide : node.rules.hasher.HasWidth width)
    (beyond : width < (node.schedule.difficultyAt (parent.height + 1)).toNat) (now : Int64)
    (requests : List Request) :
    (node.propose now parent requests).1 =
      .error (.proposal (if node.maxRequests < requests.length then
        .tooManyRequests requests.length node.maxRequests
      else .mining .exhausted)) := by
  have exhausted : (parent.child node.schedule now requests).search node.rules.hasher
      (fun _ => false) = .exhausted := Block.search_eq_exhausted wide beyond
  have failed : node.beginCycle.mineChild now parent requests =
      if node.maxRequests < requests.length then
        .error (.tooManyRequests requests.length node.maxRequests)
      else .error (.mining .exhausted) := by
    show parent.propose node.rules.hasher node.schedule node.maxRequests now requests _ = _
    rw [Block.propose]
    dsimp only
    rw [exhausted]
  rw [propose, failed]
  by_cases many : node.maxRequests < requests.length
  · rw [if_pos many, if_pos many]
  · rw [if_neg many, if_neg many]

private theorem Rules.met_of_checkOn (passed : rules.checkOn schedule parent block = .ok ()) :
    ∃ digest, block.workHash = some (rules.hasher digest) ∧
      Hasher.Meets (rules.hasher digest) (schedule.difficultyAt block.height) := by
  obtain ⟨-, checked⟩ := checkOn_eq_ok_iff.mp passed
  obtain ⟨worked, -⟩ := check_eq_ok_iff.mp checked
  obtain ⟨sealed, least, met⟩ := Block.checkWork_eq_ok_iff.mp worked
  refine ⟨_, sealed, ?_⟩
  have demanded := UInt32.le_iff_toNat_le.mp least
  exact Nat.le_trans demanded met

end Width

namespace Schedule

variable {schedule : Schedule} {bound : Nat} {height : UInt64}

private theorem exists_entry_difficultyAt (schedule : Schedule) (height : UInt64) :
    ∃ entry ∈ schedule.entries, entry.2 = schedule.difficultyAt height := by
  unfold difficultyAt entries
  cases found : schedule.changes.find? (·.1 ≤ height) with
  | none => exact ⟨(0, schedule.initial), List.mem_cons_self, rfl⟩
  | some entry =>
    have member := List.mem_of_find?_eq_some found
    exact ⟨entry, List.mem_cons_of_mem _ (List.mem_reverse.mpr member), rfl⟩

private theorem difficultyAt_le (all : ∀ entry ∈ schedule.entries, entry.2.toNat ≤ bound) :
    (schedule.difficultyAt height).toNat ≤ bound := by
  obtain ⟨entry, member, same⟩ := schedule.exists_entry_difficultyAt height
  rw [← same]
  exact all entry member

end Schedule

private theorem Schedule.forall_entries_of_record {schedule recorded : Schedule} {height : UInt64}
    {difficulty : UInt32} {bound : Nat}
    (made : schedule.record height difficulty = .ok recorded)
    (all : ∀ entry ∈ schedule.entries, entry.2.toNat ≤ bound) (within : difficulty.toNat ≤ bound) :
    ∀ entry ∈ recorded.entries, entry.2.toNat ≤ bound := by
  intro entry member
  rw [entries_of_record_eq_ok made] at member
  rcases List.mem_append.mp member with earlier | newest
  · exact all entry earlier
  · rw [List.mem_singleton.mp newest]
    exact within

private theorem Difficulty.Adjuster.toNat_cap_of (window : Nat) (seconds : Int) (cap : UInt32) :
    (of window seconds cap).cap.toNat = max cap.toNat 1 := toNat_max_one cap

theorem Difficulty.Adjuster.retarget_le {adjuster : Adjuster} (positive : 1 ≤ adjuster.cap.toNat)
    (times : List Int64) (current : UInt32) :
    (adjuster.retarget times current).toNat ≤ current.toNat + 1 ∧
      (adjuster.retarget times current).toNat ≤ max current.toNat adjuster.cap.toNat := by
  rcases retarget_eq_or_changes positive times current with same | changes
  · rw [same]
    omega
  · rcases changes.capped with below | fall
    · have capped := UInt32.le_iff_toNat_le.mp below
      rcases changes.by_one with rise | fall
      · omega
      · omega
    · omega

namespace Session

variable {width : Nat} {adjuster : Difficulty.Adjuster} {initial : UInt32} {genesis : Block}

/-- Where a schedule and a chain stand with digests of some width. -/
inductive Prospect (width : Nat) (initial : UInt32) (genesis : Block) : Schedule → Chain → Prop
  /-- Whatever is demanded, some digest meets it. -/
  | attainable (schedule : Schedule) (chain : Chain) (within : initial.toNat ≤ width)
      (all : ∀ entry ∈ schedule.entries, entry.2.toNat ≤ width) :
      Prospect width initial genesis schedule chain
  /-- The first difficulty was beyond all digests. -/
  | barred (beyond : width < initial.toNat) :
      Prospect width initial genesis (.constant initial) (.ofGenesis genesis)
  /-- The newest difficulty is beyond all digests, behind a block with nothing but zeros. -/
  | spent (schedule : Schedule) (chain : Chain) (within : initial.toNat ≤ width)
      (all : ∀ entry ∈ schedule.entries, entry.2.toNat ≤ width + 1)
      (latest : schedule.latest.1 = chain.height + 1)
      (beyond : schedule.latest.2.toNat = width + 1)
      (last : chain.tip.workHash = some (Hasher.zeros width)) :
      Prospect width initial genesis schedule chain

namespace Prospect

variable {schedule : Schedule} {chain : Chain}

private theorem of_beyond (prospect : Prospect width initial genesis schedule chain) {height : UInt64}
    (beyond : width < (schedule.difficultyAt height).toNat) :
    width < (schedule.difficultyAt (chain.height + 1)).toNat ∧
      (width < initial.toNat ∨
        initial.toNat ≤ width ∧ (schedule.difficultyAt height).toNat = width + 1 ∧
          chain.tip.workHash = some (Hasher.zeros width)) := by
  cases prospect with
  | attainable schedule chain within all =>
    exact absurd (Schedule.difficultyAt_le all) (Nat.not_le.mpr beyond)
  | barred high => exact ⟨high, .inl high⟩
  | spent schedule chain within all latest high last =>
    constructor
    · have reached : schedule.latest.1 ≤ chain.height + 1 := by
        rw [latest]
        exact UInt64.le_refl _
      rw [Schedule.difficultyAt_of_latest_le reached, high]
      exact Nat.lt_succ_self width
    · have most : (schedule.difficultyAt height).toNat ≤ width + 1 := Schedule.difficultyAt_le all
      exact .inr ⟨within, by omega, last⟩

private theorem attainable_or_beyond (prospect : Prospect width initial genesis schedule chain) :
    (initial.toNat ≤ width ∧ ∀ entry ∈ schedule.entries, entry.2.toNat ≤ width) ∨
      ∃ height, width < (schedule.difficultyAt height).toNat := by
  cases prospect with
  | attainable schedule chain within all => exact .inl ⟨within, all⟩
  | barred high => exact .inr ⟨0, high⟩
  | spent schedule chain within all latest high last =>
    refine .inr ⟨schedule.latest.1, ?_⟩
    rw [Schedule.difficultyAt_of_latest_le (UInt64.le_refl _), high]
    exact Nat.lt_succ_self width

private theorem of_high (prospect : Prospect width initial genesis schedule chain)
    (high : width < initial.toNat) : schedule = .constant initial ∧ chain = .ofGenesis genesis := by
  cases prospect with
  | attainable schedule chain within => omega
  | barred => exact ⟨rfl, rfl⟩
  | spent schedule chain within => omega

end Prospect

/-- What can be foreseen of a session with digests of some width. -/
structure Foreseen (width : Nat) (adjuster : Difficulty.Adjuster) (initial : UInt32)
    (genesis : Block) (session : Session) : Prop where
  wide : session.node.rules.hasher.HasWidth width
  adjusts : session.node.adjuster = adjuster
  capped : ∀ entry ∈ session.node.schedule.entries,
    entry.2.toNat ≤ max initial.toNat adjuster.cap.toNat
  prospect : Prospect width initial genesis session.node.schedule session.chain

namespace Foreseen

variable {node node' : Node} {chain : Chain} {block : Block} {session last : Session}

private theorem of_start {rules : Rules} (wide : rules.hasher.HasWidth width) (maxRequests : Nat)
    (adjuster : Difficulty.Adjuster) (initial : UInt32) (genesis : Block) :
    Foreseen width adjuster initial genesis
      (start (.start rules adjuster maxRequests (.constant initial)) genesis) where
  wide := wide
  adjusts := rfl
  capped entry member := by
    rw [List.mem_singleton.mp member]
    exact Nat.le_max_left _ _
  prospect := by
    by_cases within : initial.toNat ≤ width
    · refine .attainable _ _ within ?_
      intro entry member
      rw [List.mem_singleton.mp member]
      exact within
    · exact .barred (Nat.lt_of_not_le within)

private theorem of_agrees (foreseen : Foreseen width adjuster initial genesis ⟨node, chain⟩)
    (agrees : node.Agrees node') : Foreseen width adjuster initial genesis ⟨node', chain⟩ := by
  obtain ⟨wide, adjusts, capped, prospect⟩ := foreseen
  refine ⟨?_, agrees.adjuster.trans adjusts, ?_, ?_⟩
  · show node'.rules.hasher.HasWidth width
    rw [agrees.rules]
    exact wide
  · show ∀ entry ∈ node'.schedule.entries, _
    rw [agrees.schedule]
    exact capped
  · show Prospect width initial genesis node'.schedule chain
    rw [agrees.schedule]
    exact prospect

private theorem met (foreseen : Foreseen width adjuster initial genesis ⟨node, chain⟩)
    (passed : node.rules.checkOn node.schedule chain.tip block = .ok ()) :
    ∃ digest : String, digest.length = width ∧ block.workHash = some digest ∧
      Hasher.Meets digest (node.schedule.difficultyAt block.height) := by
  obtain ⟨preimage, sealed, meets⟩ := Rules.met_of_checkOn passed
  exact ⟨_, foreseen.wide preimage, sealed, meets⟩

private theorem refuses (foreseen : Foreseen width adjuster initial genesis ⟨node, chain⟩)
    {height : UInt64} (beyond : width < (node.schedule.difficultyAt height).toNat) (block : Block) :
    ∃ reason, node.rules.checkOn node.schedule chain.tip block = .error reason := by
  cases verdict : node.rules.checkOn node.schedule chain.tip block with
  | error reason => exact ⟨reason, rfl⟩
  | ok =>
    obtain ⟨digest, length, -, meets⟩ := foreseen.met verdict
    have within := Hasher.exists_meets_iff.mp ⟨digest, length, meets⟩
    have demanded := (foreseen.prospect.of_beyond beyond).1
    rw [Rules.height_of_checkOn verdict] at within
    exact absurd within (Nat.not_le.mpr demanded)

private theorem attainable_of_checkOn (foreseen : Foreseen width adjuster initial genesis ⟨node, chain⟩)
    (passed : node.rules.checkOn node.schedule chain.tip block = .ok ()) :
    initial.toNat ≤ width ∧ ∀ entry ∈ node.schedule.entries, entry.2.toNat ≤ width := by
  rcases foreseen.prospect.attainable_or_beyond with attainable | ⟨height, beyond⟩
  · exact attainable
  · obtain ⟨reason, fault⟩ := foreseen.refuses beyond block
    exact nomatch passed.symm.trans fault

private theorem retarget (foreseen : Foreseen width adjuster initial genesis ⟨node, chain⟩)
    (positive : 1 ≤ adjuster.cap.toNat)
    (passed : node.rules.checkOn node.schedule chain.tip block = .ok ()) {schedule : Schedule}
    (made : node.schedule.record (block.height + 1) (node.nextDifficulty (chain.push block)) =
      .ok schedule) :
    (∀ entry ∈ schedule.entries, entry.2.toNat ≤ max initial.toNat adjuster.cap.toNat) ∧
      Prospect width initial genesis schedule (chain.push block) := by
  obtain ⟨within, all⟩ := foreseen.attainable_of_checkOn passed
  obtain ⟨digest, length, sealed, meets⟩ := foreseen.met passed
  have next : node.nextDifficulty (chain.push block) =
      adjuster.retarget ((chain.push block).accepted.map (·.timestamp))
        (node.schedule.difficultyAt block.height) := by
    have adjusts : node.adjuster = adjuster := foreseen.adjusts
    rw [Node.nextDifficulty, Node.currentDifficulty, Chain.height_push, adjusts]
  rw [next] at made
  have moved := Difficulty.Adjuster.retarget_le positive
    ((chain.push block).accepted.map (·.timestamp)) (node.schedule.difficultyAt block.height)
  generalize adjuster.retarget _ (node.schedule.difficultyAt block.height) = raised at made moved
  obtain ⟨by_one, bounded⟩ := moved
  have current : (node.schedule.difficultyAt block.height).toNat ≤ width :=
    Schedule.difficultyAt_le all
  constructor
  · refine Schedule.forall_entries_of_record made foreseen.capped ?_
    have capped : (node.schedule.difficultyAt block.height).toNat ≤
        max initial.toNat adjuster.cap.toNat := Schedule.difficultyAt_le foreseen.capped
    omega
  · by_cases low : raised.toNat ≤ width
    · exact .attainable _ _ within (Schedule.forall_entries_of_record made all low)
    · -- it was raised from the width itself, which the block has met
      have zeros : digest = Hasher.zeros width := by
        rw [← length]
        refine Hasher.eq_zeros_of_length_le ?_
        rw [Hasher.Meets] at meets
        omega
      have latest := Schedule.latest_of_record_eq_ok made
      refine .spent _ _ within ?_ ?_ ?_ ?_
      · refine Schedule.forall_entries_of_record made ?_ (by omega)
        intro entry member
        exact Nat.le_succ_of_le (all entry member)
      · rw [latest, Chain.height_push]
      · rw [latest]
        show raised.toNat = width + 1
        omega
      · rw [Chain.tip_push, sealed, zeros]

private theorem offer (foreseen : Foreseen width adjuster initial genesis ⟨node, chain⟩)
    (positive : 1 ≤ adjuster.cap.toNat) :
    Foreseen width adjuster initial genesis
      ⟨(node.accept chain block).2.1, (node.accept chain block).2.2⟩ := by
  have offered := node.offer_accept chain block
  generalize node.accept chain block = result at offered ⊢
  cases offered with
  | refused reason fault => exact foreseen.of_agrees ⟨rfl, rfl, rfl, rfl⟩
  | joined passed steady | stuck passed change error refusal =>
    obtain ⟨within, all⟩ := foreseen.attainable_of_checkOn passed
    exact ⟨foreseen.wide, foreseen.adjusts, foreseen.capped, .attainable _ _ within all⟩
  | retargeted passed change schedule made =>
    obtain ⟨capped, prospect⟩ := foreseen.retarget positive passed made
    exact ⟨foreseen.wide, foreseen.adjusts, capped, prospect⟩

private theorem run (foreseen : Foreseen width adjuster initial genesis session)
    (positive : 1 ≤ adjuster.cap.toNat) {operations : List Operation}
    (ran : session.run? operations = some last) :
    Foreseen width adjuster initial genesis last :=
  holds_of_run? of_agrees (fun foreseen _ => foreseen.offer positive) foreseen ran

end Foreseen

end Session

namespace Config

/-- Settings of two difficulties, with all others as usual. -/
def ofDifficulties (initial greatest : UInt32) : String → Option String
  | "INITIAL_DIFFICULTY" => some (toString initial.toNat)
  | "MAX_DIFFICULTY" => some (toString greatest.toNat)
  | _ => none

private theorem word32_toDigits (word : UInt32) : word32? (Nat.toDigits 10 word.toNat) = some word := by
  have bound := word.toNat_lt
  rw [word32?, Text.Numeral.unsigned_toDigits (by omega), Option.map_some, UInt32.ofNat_toNat]

private theorem setting_word32 {lookup : String → Option String} {key : String} {word : UInt32}
    (given : lookup key = some (toString word.toNat)) (usual : UInt32) :
    setting lookup word32? key usual = .ok word := by
  rw [setting, given]
  dsimp only
  rw [Text.Numeral.toList_toString, Text.Numeral.trim_toDigits, word32_toDigits]

private theorem exists_read (initial greatest : UInt32) :
    ∃ config, read (ofDifficulties initial greatest) = .ok config ∧
      config.initialDifficulty = initial ∧ config.maxDifficulty = greatest := by
  have usual : (Delay.Parameters.of Delay.rsa2048 (UInt64.ofNat Delay.usualTime.toNat)
      Delay.usualSecurity).isOk = true := by decide +kernel
  have first : ofDifficulties initial greatest "INITIAL_DIFFICULTY" =
      some (toString initial.toNat) := rfl
  have second : ofDifficulties initial greatest "MAX_DIFFICULTY" =
      some (toString greatest.toNat) := rfl
  have others {α : Type} {key : String} (unset : ofDifficulties initial greatest key = none)
      (read? : List Char → Option α) (value : α) :
      setting (ofDifficulties initial greatest) read? key value = .ok value := by
    rw [setting, unset]
  have modulus : ofDifficulties initial greatest "VDF_MODULUS" = none := rfl
  have time : ofDifficulties initial greatest "VDF_TIME_PARAMETER" = none := rfl
  have security : ofDifficulties initial greatest "VDF_SECURITY_PARAMETER" = none := rfl
  cases delay : Delay.Parameters.of Delay.rsa2048 (UInt64.ofNat Delay.usualTime.toNat)
      Delay.usualSecurity with
  | error error =>
    rw [delay] at usual
    exact absurd usual Bool.false_ne_true
  | ok parameters =>
    have delays : readDelay (ofDifficulties initial greatest) = .ok parameters := by
      rw [readDelay, others modulus, others time, others security]
      dsimp only [bind, Except.bind]
      rw [delay]
      rfl
    have settings : read (ofDifficulties initial greatest) = .ok
        { delay := parameters
          input := .workHash
          initialDifficulty := initial
          maxDifficulty := greatest
          targetSeconds := Difficulty.Adjuster.usualSeconds
          window := Difficulty.Adjuster.usualWindow
          maxRequests := 10
          blocks := 3 } := by
      rw [read, delays, setting_word32 first, setting_word32 second]
      rfl
    exact ⟨_, settings, rfl, rfl⟩

end Config

namespace Session

private theorem foreseen_of_config (config : Config) (senders : Option Registry) (genesis : Block)
    {operations : List Operation} {session : Session}
    (ran : (start (config.node senders) genesis).run? operations = some session) :
    Foreseen 64 config.adjuster config.initialDifficulty genesis session := by
  let rules : Rules := ⟨Hasher.sha256, config.delay, config.input, senders⟩
  have wide : rules.hasher.HasWidth 64 := Hasher.hasWidth_sha256
  have started : Foreseen 64 config.adjuster config.initialDifficulty genesis
      (start (config.node senders) genesis) :=
    .of_start wide config.maxRequests config.adjuster config.initialDifficulty genesis
  have positive : 1 ≤ config.adjuster.cap.toNat := Difficulty.Adjuster.cap_of_positive _ _ _
  exact started.run positive ran

/-- A digest can meet what a node demands at a height exactly if that is up to sixty-four, and settings
take any two difficulties. If both are up to sixty-four, so is all that a node of the settings ever
demands. If the first is above, the node never leaves its genesis block. If only the greatest is, the
difficulty can rise to sixty-five, behind a block whose work hash is nothing but zeros. Once anything
above sixty-four is demanded, every block is refused, and no nonce wins the search for the next. -/
theorem difficulty_attainable_unless (config : Config) (senders : Option Registry) (genesis : Block)
    {operations : List Operation} {session : Session}
    (ran : (start (config.node senders) genesis).run? operations = some session) :
    (∀ height, (∃ digest : String, digest.length = 64 ∧
      Hasher.Meets digest (session.node.schedule.difficultyAt height)) ↔
        session.node.schedule.difficultyAt height ≤ 64) ∧
    (∃ lookup taken, Config.read lookup = .ok taken ∧
      taken.initialDifficulty = config.initialDifficulty ∧
      taken.maxDifficulty = config.maxDifficulty) ∧
    (config.initialDifficulty ≤ 64 → config.maxDifficulty ≤ 64 →
      ∀ height, session.node.schedule.difficultyAt height ≤ 64) ∧
    (64 < config.initialDifficulty → session.chain = .ofGenesis genesis ∧
      session.node.schedule = .constant config.initialDifficulty) ∧
    ∀ height, 64 < session.node.schedule.difficultyAt height →
      (64 < config.initialDifficulty ∨
        64 < config.maxDifficulty ∧ session.node.schedule.difficultyAt height = 65 ∧
          session.chain.tip.workHash = some (Hasher.zeros 64)) ∧
      (∀ block, ∃ reason, session.node.accept session.chain block =
        (.error (.rejected reason), { session.node with phase := .rejected }, session.chain)) ∧
      ∀ now requests, (session.node.propose now session.chain.tip requests).1 =
        .error (.proposal (if session.node.maxRequests < requests.length then
          .tooManyRequests requests.length session.node.maxRequests
        else .mining .exhausted)) := by
  have foreseen := foreseen_of_config config senders genesis ran
  have cap : config.adjuster.cap.toNat = max config.maxDifficulty.toNat 1 :=
    Difficulty.Adjuster.toNat_cap_of config.window config.targetSeconds config.maxDifficulty
  have capped (height : UInt64) : (session.node.schedule.difficultyAt height).toNat ≤
      max config.initialDifficulty.toNat config.adjuster.cap.toNat :=
    Schedule.difficultyAt_le foreseen.capped
  have most : (64 : UInt32).toNat = 64 := rfl
  simp only [UInt32.le_iff_toNat_le, UInt32.lt_iff_toNat_lt, most]
  refine ⟨fun height => Hasher.exists_meets_iff, ⟨_, Config.exists_read _ _⟩, ?_, ?_, ?_⟩
  · intro low bounded height
    have within := capped height
    omega
  · intro high
    exact (foreseen.prospect.of_high high).symm
  · intro height beyond
    obtain ⟨ahead, stands⟩ := foreseen.prospect.of_beyond beyond
    refine ⟨?_, ?_, ?_⟩
    · rcases stands with high | ⟨low, raised, zeros⟩
      · exact .inl high
      · have within := capped height
        refine .inr ⟨by omega, UInt32.toNat.inj raised, zeros⟩
    · intro block
      obtain ⟨reason, fault⟩ := foreseen.refuses beyond block
      exact ⟨reason, Node.accept_of_checkOn_eq_error fault⟩
    · intro now requests
      exact Node.propose_of_beyond foreseen.wide ahead now requests

/-- A node whose settings begin at difficulty sixty-five. -/
theorem difficulty_attainable_unless_first_beyond :
    ∃ config session,
      Config.read (Config.ofDifficulties 65 64) = .ok config ∧
      (start (config.node none) Block.genesis).run? [.audit] = some session ∧
      session.node.schedule.difficultyAt 1 = 65 ∧
      session.chain = .ofGenesis Block.genesis ∧
      (¬∃ digest : String, digest.length = 64 ∧ Hasher.Meets digest 65) ∧
      (∃ reason, session.node.accept session.chain Block.genesis =
        (.error (.rejected reason), { session.node with phase := .rejected }, session.chain)) ∧
      (session.node.propose 0 session.chain.tip []).1 =
        .error (.proposal (.mining .exhausted)) := by
  obtain ⟨config, settings, initial, -⟩ := Config.exists_read 65 64
  have ran : (start (config.node none) Block.genesis).run? [.audit] =
      some (start (config.node none) Block.genesis) := rfl
  obtain ⟨met, -, -, high, beyond⟩ := difficulty_attainable_unless config none Block.genesis ran
  have first : (64 : UInt32) < config.initialDifficulty := by
    rw [initial]
    decide
  obtain ⟨chain, schedule⟩ := high first
  have demanded :
      (start (config.node none) Block.genesis).node.schedule.difficultyAt 1 = 65 := by
    rw [schedule, initial]
    rfl
  have unmet : ¬∃ digest : String, digest.length = 64 ∧ Hasher.Meets digest 65 := by
    rw [← demanded, met 1, demanded]
    decide
  obtain ⟨-, refused, searched⟩ := beyond 1 (by rw [demanded]; decide)
  exact ⟨config, _, settings, ran, demanded, chain, unmet, refused Block.genesis, searched 0 []⟩

end Session

end DelayChain
