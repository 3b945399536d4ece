import Fabric.Policies.Cauthdsl

/-!
# More signatures

Signatures are taken in the order of the leaves of a policy and in the order in
which they are given.  A leaf may take a signature that a later leaf needs, and
a gate that succeeds keeps all that its rules have taken, also what it did not
need.  A signature that is added, or an exchange of two signatures, can
therefore make a policy refuse what it accepted before.

It cannot if the most demanding leaves of a gate come first: what serves a leaf
also serves a later one, or it does not serve it at all.  A gate that asks for
one rule only needs no order among its rules.
-/

namespace Fabric.Policies.Monotonicity

open Library Outcome ByteString Protos Cauthdsl

/-! ## Leaves that do not compete -/

mutual

/-- The indices of the principals that a policy names. -/
def leaves : SignaturePolicy → List Int32
  | .absent => []
  | .unset => []
  | .signedBy index => [index]
  | .nOutOf _ rules => leavesOfRules rules

def leavesOfRules : SignaturePolicies → List Int32
  | .nil => []
  | .cons rule rest => leaves rule ++ leavesOfRules rest

end

def rulesLength : SignaturePolicies → Nat
  | .nil => 0
  | .cons _ rest => rulesLength rest + 1

section

variable {Principal Identity : Type} (deserializer : IdentityDeserializer Principal Identity)
  (identities : List Principal)

/-- A signature serves the principal with an index. -/
def servesIndex (index : Int32) (sd : SignedData) : Bool :=
  match identities[index.toInt.toNat]? with
  | some signedByID => serves deserializer signedByID sd
  | none => false

/-- A signature serves a principal and none of some others. -/
def servesOnly (index : Int32) (others : List Int32) (sd : SignedData) : Bool :=
  servesIndex deserializer identities index sd &&
    others.all fun other => !servesIndex deserializer identities other sd

theorem servesOnly_nil (index : Int32) :
    servesOnly deserializer identities index [] = servesIndex deserializer identities index := by
  funext sd
  rw [servesOnly, List.all_nil, Bool.and_true]

variable (entries : List SignedData)

/-- No signature serves both principals. -/
def Apart (first second : Int32) : Prop :=
  ∀ sd ∈ entries, servesIndex deserializer identities first sd = true →
      servesIndex deserializer identities second sd = false

/-- What serves the first principal also serves the second. -/
def Within (first second : Int32) : Prop :=
  ∀ sd ∈ entries, servesIndex deserializer identities first sd = true →
      servesIndex deserializer identities second sd = true

/-- A rule takes no signature that a later leaf needs more than the rule does. -/
def Compatible (later : List Int32) : SignaturePolicy → Prop
  | .signedBy first =>
    ∀ second ∈ later, Within deserializer identities entries first second ∨
      Apart deserializer identities entries first second
  | rule =>
    ∀ first ∈ leaves rule, ∀ second ∈ later, Apart deserializer identities entries first second

mutual

/--
The rules of a gate can be counted in 32 bits.  If it asks for more than one of
them, none of them competes with the rules after it.
-/
def Separated : SignaturePolicy → Prop
  | .absent => True
  | .unset => True
  | .signedBy _ => True
  | .nOutOf n rules =>
    rulesLength rules < 2 ^ 31 ∧ (n ≤ 0 ∨ n ≤ 1 ∧ SeparatedEach rules ∨ SeparatedRules rules)

def SeparatedEach : SignaturePolicies → Prop
  | .nil => True
  | .cons rule rest => Separated rule ∧ SeparatedEach rest

def SeparatedRules : SignaturePolicies → Prop
  | .nil => True
  | .cons rule rest =>
    Separated rule ∧ Compatible deserializer identities entries (leavesOfRules rest) rule ∧
      SeparatedRules rest

end

/-! ## Free signatures -/

/-- How many free signatures are suitable. -/
def free (suits : SignedData → Bool) (signedData : List SignedData) (used : List Bool) : Nat :=
  (signedData.zip used).countP fun entry => !entry.2 && suits entry.1

variable {deserializer identities entries} {index : Int32} {used : List Bool} {sd : SignedData}
  {suits : SignedData → Bool} {signedData : List SignedData}

theorem free_set {position : Nat} (here : signedData[position]? = some sd)
    (unused : used[position]? = some false) :
    free suits signedData (used.set position true) + (suits sd).toNat =
      free suits signedData used := by
  induction signedData generalizing used position with
  | nil => cases here
  | cons _ signedData ih =>
    cases used with
    | nil => cases unused
    | cons _ used =>
      cases position with
      | zero =>
        cases here
        cases unused
        simp only [free, List.set_cons_zero, List.zip_cons_cons, List.countP_cons]
        cases suits sd <;> simp
      | succ position =>
        have later := ih here unused
        simp only [free, List.set_cons_succ, List.zip_cons_cons, List.countP_cons] at later ⊢
        omega

theorem exists_of_free_pos (positive : 0 < free suits signedData used) :
    ∃ (position : Nat) (sd : SignedData), signedData[position]? = some sd ∧
      used[position]? = some false ∧ suits sd = true := by
  rcases List.countP_pos_iff.mp positive with ⟨⟨sd, _⟩, member, suited⟩
  rw [Bool.and_eq_true, Bool.not_eq_true'] at suited
  rcases List.mem_iff_getElem?.mp member with ⟨position, found⟩
  rw [List.getElem?_zip_eq_some] at found
  refine ⟨position, sd, found.1, ?_, suited.2⟩
  rw [found.2, suited.1]

/-- The suitable signatures are counted in two parts. -/
theorem free_add {left right : SignedData → Bool}
    (split : ∀ sd ∈ signedData, (suits sd).toNat = (left sd).toNat + (right sd).toNat)
    (used : List Bool) :
    free suits signedData used = free left signedData used + free right signedData used := by
  induction signedData generalizing used with
  | nil => rfl
  | cons sd signedData ih =>
    cases used with
    | nil => rfl
    | cons taken used =>
      rw [List.forall_mem_cons] at split
      have rest := ih split.2 used
      simp only [free, List.zip_cons_cons, List.countP_cons] at rest ⊢
      rw [rest]
      have first := split.1
      revert first
      cases taken <;> cases suits sd <;> cases left sd <;> cases right sd <;> simp <;> omega

theorem evaluateSignedBy_accepts_iff {signedByID : Principal}
    (named : identities[index.toInt.toNat]? = some signedByID) :
    (evaluateSignedBy deserializer signedByID signedData used).1 = true ↔
      0 < free (servesIndex deserializer identities index) signedData used := by
  have same : ∀ sd, servesIndex deserializer identities index sd =
          serves deserializer signedByID sd := by
    intro sd
    rw [servesIndex, named]
  constructor
  · intro accepted
    rcases outcome : evaluateSignedBy deserializer signedByID signedData used with ⟨_, _⟩
    rw [outcome] at accepted
    cases accepted
    rcases evaluateSignedBy_eq_true outcome with ⟨position, sd, here, served, unused, _⟩
    have taken := @free_set _ _ (servesIndex deserializer identities index) _ _ here unused
    rw [same, served, Bool.toNat_true] at taken
    omega
  · intro positive
    rcases exists_of_free_pos positive with ⟨position, sd, here, unused, served⟩
    rw [evaluateSignedBy]
    split
    next => rfl
    next missing =>
      rw [List.find?_eq_none] at missing
      have refused := missing (sd, position) (List.mem_zipIdx_iff_getElem?.mpr here)
      rw [same] at served
      simp [unused, served] at refused

/-! ## What rules leave alone -/

theorem compile_signedBy_ok {evaluator : Evaluator}
    (compiled : compile deserializer identities (.signedBy index) = .ok evaluator) :
    ∃ signedByID, identities[index.toInt.toNat]? = some signedByID ∧
        evaluator = evaluateSignedBy deserializer signedByID := by
  rw [compile] at compiled
  split_ifs at compiled
  split at compiled
  next signedByID named =>
    cases compiled
    exact ⟨signedByID, named, rfl⟩
  next => cases compiled

theorem free_of_evaluateSignedBy {signedByID : Principal}
    (named : identities[index.toInt.toNat]? = some signedByID) {before after : List Bool}
    (accepted : evaluateSignedBy deserializer signedByID signedData before = (true, after)) :
    ∃ sd ∈ signedData, servesIndex deserializer identities index sd = true ∧
        free suits signedData after + (suits sd).toNat = free suits signedData before := by
  rcases evaluateSignedBy_eq_true accepted with ⟨_, sd, here, served, unused, rfl⟩
  refine ⟨sd, List.mem_of_getElem? here, ?_, free_set here unused⟩
  rw [servesIndex, named]
  exact served

/-- What serves the principal is not suitable. -/
def Spares (deserializer : IdentityDeserializer Principal Identity) (identities : List Principal)
    (signedData : List SignedData) (suits : SignedData → Bool) (index : Int32) : Prop :=
  ∀ sd ∈ signedData, servesIndex deserializer identities index sd = true → suits sd = false

/-- A rule that takes no suitable signature leaves as many as there were. -/
theorem free_tryRule {first : Evaluator} {state : Int32 × List Bool}
    (spared : ∀ after, first signedData state.2 = (true, after) →
      free suits signedData after = free suits signedData state.2) :
    free suits signedData (tryRule signedData state first).2 =
      free suits signedData state.2 := by
  rcases outcome : first signedData state.2 with ⟨accepts, after⟩
  cases accepts with
  | false => rw [tryRule_of_false outcome]
  | true =>
    rw [tryRule_of_true outcome]
    exact spared after outcome

mutual

/-- A policy that accepts takes no signature that serves none of its leaves. -/
theorem free_of_accepted :
    ∀ (policy : SignaturePolicy) {evaluator : Evaluator} {before after : List Bool},
      compile deserializer identities policy = .ok evaluator →
        evaluator signedData before = (true, after) →
        (∀ index ∈ leaves policy, Spares deserializer identities signedData suits index) →
        free suits signedData after = free suits signedData before
  | .absent, _, _, _, compiled, _, _ => by cases compiled
  | .unset, _, _, _, compiled, _, _ => by cases compiled
  | .signedBy index, evaluator, before, after, compiled, accepted, spares => by
      rcases compile_signedBy_ok compiled with ⟨signedByID, named, rfl⟩
      rcases @free_of_evaluateSignedBy _ _ deserializer identities index suits _
          signedByID named _ _ accepted with ⟨sd, member, served, counted⟩
      rw [spares index List.mem_cons_self sd member served] at counted
      exact counted
  | .nOutOf n rules, evaluator, before, after, compiled, accepted, spares => by
      rw [compile, bind_ok_iff] at compiled
      rcases compiled with ⟨_, compiled, same⟩
      cases same
      rw [← (Prod.mk.inj accepted).2]
      exact free_of_rules rules (0, before) compiled spares

theorem free_of_rules :
    ∀ (rules : SignaturePolicies) {policies : List Evaluator} (state : Int32 × List Bool),
      compileRules deserializer identities rules = .ok policies →
        (∀ index ∈ leavesOfRules rules, Spares deserializer identities signedData suits index) →
        free suits signedData (policies.foldl (tryRule signedData) state).2 =
          free suits signedData state.2
  | .nil, _, _, compiled, _ => by
    cases compiled
    rfl
  | .cons rule rest, policies, state, compiled, spares => by
    simp only [compileRules, bind_ok_iff] at compiled
    rcases compiled with ⟨first, compiledRule, _, compiledRest, same⟩
    cases same
    rw [leavesOfRules, List.forall_mem_append] at spares
    rw [List.foldl_cons, free_of_rules rest _ compiledRest spares.2]
    exact free_tryRule fun _ accepted => free_of_accepted rule compiledRule accepted spares.1

end

variable {rule : SignaturePolicy} {first : Evaluator}

section

variable {other : Int32} {others : List Int32} (within : signedData ⊆ entries)
include within

theorem Apart.spares (apart : Apart deserializer identities entries index other) :
    Spares deserializer identities signedData
      (servesOnly deserializer identities other others) index := by
  intro sd member served
  rw [servesOnly, apart sd (within member) served, Bool.false_and]

theorem Within.spares (contained : Within deserializer identities entries index other)
    (listed : other ∈ others) (of : Int32) :
    Spares deserializer identities signedData
      (servesOnly deserializer identities of others) index := by
  intro sd member served
  rw [servesOnly, Bool.and_eq_false_iff]
  right
  rw [List.all_eq_false]
  exact ⟨other, listed, by simp [contained sd (within member) served]⟩

/-- What serves an earlier principal is a part of what serves a later one alone. -/
theorem Within.free_eq (contained : Within deserializer identities entries index other)
    (apart : ∀ listed ∈ others, Apart deserializer identities entries index listed)
    (used : List Bool) :
    free (servesOnly deserializer identities other others) signedData used =
      free (servesOnly deserializer identities other (index :: others)) signedData used +
        free (servesIndex deserializer identities index) signedData used := by
  apply free_add
  intro sd member
  cases served : servesIndex deserializer identities index sd with
  | false => simp [servesOnly, served]
  | true =>
    have clear : ∀ listed ∈ others, servesIndex deserializer identities listed sd = false :=
      fun listed inside => apart listed inside sd (within member) served
    simpa [servesOnly, served, contained sd (within member) served] using clear

end

/-! ## More free signatures -/

/--
For each of the leaves, at least as many free signatures serve it alone among
any of the leaves.
-/
def AtLeastAsFree (deserializer : IdentityDeserializer Principal Identity)
    (identities : List Principal) (indices : List Int32)
    (fewer : List SignedData) (usedFewer : List Bool)
    (more : List SignedData) (usedMore : List Bool) : Prop :=
  ∀ index ∈ indices, ∀ others ⊆ indices,
    free (servesOnly deserializer identities index others) fewer usedFewer ≤
      free (servesOnly deserializer identities index others) more usedMore

theorem AtLeastAsFree.mono {indices smaller : List Int32} {fewer more : List SignedData}
    {usedFewer usedMore : List Bool}
    (freer : AtLeastAsFree deserializer identities indices fewer usedFewer more usedMore)
    (contained : smaller ⊆ indices) :
    AtLeastAsFree deserializer identities smaller fewer usedFewer more usedMore :=
  fun index member others inside =>
    freer index (contained member) others fun _ listed => contained (inside listed)

section

variable {later : List Int32} {fewer more : List SignedData}
  {stateFewer stateMore : Int32 × List Bool} (withinFewer : fewer ⊆ entries)
  (withinMore : more ⊆ entries)
  (still : (first fewer stateFewer.2).1 = true → (first more stateMore.2).1 = true)
  (freer : AtLeastAsFree deserializer identities (leaves rule ++ later)
    fewer stateFewer.2 more stateMore.2)
include withinFewer withinMore freer

theorem atLeastAsFree_of_apart (compiled : compile deserializer identities rule = .ok first)
    {other : Int32} {others : List Int32} (member : other ∈ later) (inside : others ⊆ later)
    (spares : ∀ signedData, signedData ⊆ entries → ∀ index ∈ leaves rule,
      Spares deserializer identities signedData
        (servesOnly deserializer identities other others) index) :
    free (servesOnly deserializer identities other others) fewer
        (tryRule fewer stateFewer first).2 ≤
      free (servesOnly deserializer identities other others) more
        (tryRule more stateMore first).2 := by
  rw [free_tryRule fun _ accepted => free_of_accepted rule compiled accepted
      (spares fewer withinFewer),
    free_tryRule fun _ accepted => free_of_accepted rule compiled accepted
      (spares more withinMore)]
  exact freer other (List.mem_append_right _ member) others fun _ listed =>
    List.mem_append_right _ (inside listed)

include still

/-- A leaf that what serves it also serves a later one leaves as many for that one. -/
theorem atLeastAsFree_of_within
    (compiled : compile deserializer identities (.signedBy index) = .ok first)
    (ruled : rule = .signedBy index)
    {other : Int32} {others : List Int32} (member : other ∈ later) (inside : others ⊆ later)
    (contained : Within deserializer identities entries index other)
    (apart : ∀ listed ∈ others, Apart deserializer identities entries index listed) :
    free (servesOnly deserializer identities other others) fewer
        (tryRule fewer stateFewer first).2 ≤
      free (servesOnly deserializer identities other others) more
        (tryRule more stateMore first).2 := by
  rcases compile_signedBy_ok compiled with ⟨signedByID, named, rfl⟩
  subst ruled
  have suited : ∀ sd ∈ entries, servesIndex deserializer identities index sd = true →
        servesOnly deserializer identities other others sd = true := by
    intro sd listed served
    rw [servesOnly, contained sd listed served, Bool.true_and, List.all_eq_true]
    exact fun of ofListed => by simp [apart of ofListed sd listed served]
  have before := freer other (List.mem_append_right _ member) others fun _ listed =>
    List.mem_append_right _ (inside listed)
  rcases outcomeMore : evaluateSignedBy deserializer signedByID more stateMore.2 with ⟨_ | _, _⟩
  · -- The leaf refuses both.
    rw [outcomeMore] at still
    rcases outcome : evaluateSignedBy deserializer signedByID fewer stateFewer.2 with ⟨_ | _, _⟩
    · rw [tryRule_of_false outcome, tryRule_of_false outcomeMore]
      exact before
    · exact absurd (still (by rw [outcome])) Bool.false_ne_true
  · rcases @free_of_evaluateSignedBy _ _ deserializer identities index
        (servesOnly deserializer identities other others) _ signedByID named _ _ outcomeMore with
      ⟨sdMore, inMore, servedMore, countedMore⟩
    rw [suited sdMore (withinMore inMore) servedMore, Bool.toNat_true] at countedMore
    rw [tryRule_of_true outcomeMore]
    dsimp only
    rcases outcome : evaluateSignedBy deserializer signedByID fewer stateFewer.2 with ⟨_ | _, _⟩
    · -- Nothing serves the leaf among the fewer signatures.
      rw [tryRule_of_false outcome]
      have exhausted : ¬ 0 < free (servesIndex deserializer identities index) fewer
            stateFewer.2 := by
        rw [← evaluateSignedBy_accepts_iff named, outcome]
        exact Bool.false_ne_true
      have accepting := (@evaluateSignedBy_accepts_iff _ _ deserializer _ index stateMore.2 more
        _ named).mp (by rw [outcomeMore])
      have rest := freer other (List.mem_append_right _ member) (index :: others)
        (List.cons_subset.mpr ⟨List.mem_append_left _ List.mem_cons_self, fun _ listed =>
          List.mem_append_right _ (inside listed)⟩)
      have splitFewer := contained.free_eq withinFewer apart stateFewer.2
      have splitMore := contained.free_eq withinMore apart stateMore.2
      omega
    · rcases @free_of_evaluateSignedBy _ _ deserializer identities index
          (servesOnly deserializer identities other others) _ signedByID named _ _ outcome with
        ⟨sdFewer, inFewer, servedFewer, countedFewer⟩
      rw [suited sdFewer (withinFewer inFewer) servedFewer, Bool.toNat_true] at countedFewer
      rw [tryRule_of_true outcome]
      dsimp only
      omega

/--
A rule that accepts with more free signatures if it accepts with fewer leaves
more of them for the rules after it.
-/
theorem atLeastAsFree_of_tryRule (compiled : compile deserializer identities rule = .ok first)
    (compatible : Compatible deserializer identities entries later rule) :
    AtLeastAsFree deserializer identities later fewer (tryRule fewer stateFewer first).2
      more (tryRule more stateMore first).2 := by
  intro other member others inside
  by_cases leaf : ∃ index, rule = .signedBy index
  · rcases leaf with ⟨index, rfl⟩
    rcases compatible other member with contained | apart
    · by_cases covered : ∃ listed ∈ others, Within deserializer identities entries index listed
      · rcases covered with ⟨listed, there, covers⟩
        refine atLeastAsFree_of_apart withinFewer withinMore freer compiled member inside ?_
        intro signedData within of ofLeaf
        cases List.mem_singleton.mp ofLeaf
        exact covers.spares within there other
      · refine atLeastAsFree_of_within withinFewer withinMore still freer compiled rfl member
          inside contained ?_
        intro listed there
        exact (compatible listed (inside there)).resolve_left fun covers =>
          covered ⟨listed, there, covers⟩
    · refine atLeastAsFree_of_apart withinFewer withinMore freer compiled member inside ?_
      intro signedData within of ofLeaf
      cases List.mem_singleton.mp ofLeaf
      exact apart.spares within
  · have apart : ∀ index ∈ leaves rule, ∀ second ∈ later,
          Apart deserializer identities entries index second := by
      cases rule with
      | signedBy index => exact absurd ⟨index, rfl⟩ leaf
      | absent | unset | nOutOf _ _ => exact compatible
    refine atLeastAsFree_of_apart withinFewer withinMore freer compiled member inside ?_
    intro signedData within index ofRule
    exact (apart index ofRule other member).spares within

end

theorem toInt_succ {verified : Int32} (below : verified.toInt + 1 < 2 ^ 31) :
    (verified + 1).toInt = verified.toInt + 1 := by
  rw [Int32.toInt_add]
  have least := verified.le_toInt
  simp only [Int32.toInt_one]
  rw [Int.bmod_def]
  omega

theorem tryRule_count_le {fewer more : List SignedData}
    {stateFewer stateMore : Int32 × List Bool} (below : stateMore.1.toInt + 1 < 2 ^ 31)
    (counted : stateFewer.1.toInt ≤ stateMore.1.toInt)
    (still : (first fewer stateFewer.2).1 = true → (first more stateMore.2).1 = true) :
    (tryRule fewer stateFewer first).1.toInt ≤ (tryRule more stateMore first).1.toInt ∧
      (tryRule more stateMore first).1.toInt ≤ stateMore.1.toInt + 1 := by
  have succMore := toInt_succ below
  have succFewer := toInt_succ_le stateFewer.1
  rcases outcome : first fewer stateFewer.2 with ⟨accepts, _⟩
  rcases outcomeMore : first more stateMore.2 with ⟨acceptsMore, _⟩
  rw [outcome, outcomeMore] at still
  cases acceptsMore with
  | false =>
    cases accepts with
    | false =>
      rw [tryRule_of_false outcome, tryRule_of_false outcomeMore]
      omega
    | true => exact absurd (still rfl) Bool.false_ne_true
  | true =>
    rw [tryRule_of_true outcomeMore]
    cases accepts with
    | false =>
      rw [tryRule_of_false outcome]
      dsimp only
      omega
    | true =>
      rw [tryRule_of_true outcome]
      dsimp only
      omega

/-! ## Gates that ask for one rule -/

theorem rulesLength_of_compileRules :
    ∀ (rules : SignaturePolicies) {policies : List Evaluator},
      compileRules deserializer identities rules = .ok policies →
        policies.length = rulesLength rules
  | .nil, _, compiled => by
    cases compiled
    rfl
  | .cons _ rest, _, compiled => by
    simp only [compileRules, bind_ok_iff] at compiled
    rcases compiled with ⟨_, _, _, compiledRest, same⟩
    cases same
    rw [List.length_cons, rulesLength_of_compileRules rest compiledRest, rulesLength]

section

variable {policies : List Evaluator} {state : Int32 × List Bool}

/-- Until a rule accepts, each of them finds the signatures that the first one found. -/
theorem exists_accepts_of_count_ne
    (counted : (policies.foldl (tryRule signedData) state).1 ≠ state.1) :
    ∃ policy ∈ policies, (policy signedData state.2).1 = true := by
  induction policies with
  | nil => exact absurd rfl counted
  | cons policy policies ih =>
    rcases outcome : policy signedData state.2 with ⟨accepts, _⟩
    cases accepts with
    | true => exact ⟨policy, List.mem_cons_self, by rw [outcome]⟩
    | false =>
      rw [List.foldl_cons, tryRule_of_false outcome] at counted
      rcases ih counted with ⟨later, member, accepted⟩
      exact ⟨later, List.mem_cons_of_mem _ member, accepted⟩

theorem le_foldl_tryRule (below : state.1.toInt + policies.length < 2 ^ 31) :
    state.1.toInt ≤ (policies.foldl (tryRule signedData) state).1.toInt := by
  induction policies generalizing state with
  | nil => exact Int.le_refl _
  | cons policy policies ih =>
    rw [List.length_cons] at below
    push_cast at below
    rw [List.foldl_cons]
    rcases outcome : policy signedData state.2 with ⟨accepts, _⟩
    cases accepts with
    | false =>
      rw [tryRule_of_false outcome]
      exact ih (by omega)
    | true =>
      have counted := @toInt_succ state.1 (by omega)
      rw [tryRule_of_true outcome]
      refine Int.le_trans ?_ (ih ?_) <;> dsimp only <;> omega

theorem lt_foldl_tryRule (accepts : ∃ policy ∈ policies, (policy signedData state.2).1 = true)
    (below : state.1.toInt + policies.length < 2 ^ 31) :
    state.1.toInt < (policies.foldl (tryRule signedData) state).1.toInt := by
  induction policies generalizing state with
  | nil =>
    rcases accepts with ⟨_, member, _⟩
    cases member
  | cons first policies ih =>
    rw [List.length_cons] at below
    push_cast at below
    rw [List.foldl_cons]
    rcases outcome : first signedData state.2 with ⟨accepted, _⟩
    cases accepted with
    | true =>
      have counted := @toInt_succ state.1 (by omega)
      rw [tryRule_of_true outcome]
      refine Int.lt_of_lt_of_le ?_ (le_foldl_tryRule ?_) <;> dsimp only <;> omega
    | false =>
      rw [tryRule_of_false outcome]
      rcases accepts with ⟨policy, member, accepted⟩
      rcases List.mem_cons.mp member with rfl | later
      · rw [outcome] at accepted
        cases accepted
      · exact ih ⟨policy, later, accepted⟩ (by omega)

end

/-! ## Policies -/

mutual

/-- A policy accepts with more free signatures if it accepts with fewer. -/
theorem accepts_of_accepts :
    ∀ (policy : SignaturePolicy) {evaluator : Evaluator}
      {fewer more : List SignedData} {usedFewer usedMore : List Bool},
      compile deserializer identities policy = .ok evaluator →
        Separated deserializer identities entries policy →
        fewer ⊆ entries → more ⊆ entries →
        AtLeastAsFree deserializer identities (leaves policy) fewer usedFewer more usedMore →
        (evaluator fewer usedFewer).1 = true →
        (evaluator more usedMore).1 = true
  | .absent, _, _, _, _, _, compiled, _, _, _, _, _ => by cases compiled
  | .unset, _, _, _, _, _, compiled, _, _, _, _, _ => by cases compiled
  | .signedBy index, _, fewer, more, _, _, compiled, _, _, _, freer,
    accepted => by
      rcases compile_signedBy_ok compiled with ⟨_, named, rfl⟩
      rw [evaluateSignedBy_accepts_iff named] at accepted ⊢
      have enough := freer index List.mem_cons_self [] (List.nil_subset _)
      rw [servesOnly_nil] at enough
      exact Nat.lt_of_lt_of_le accepted enough
  | .nOutOf n rules, _, fewer, more, usedFewer, usedMore, compiled,
    separated, withinFewer, withinMore, freer, accepted => by
      rw [compile, bind_ok_iff] at compiled
      rcases compiled with ⟨_, compiled, same⟩
      cases same
      have below : (0 : Int32).toInt + rulesLength rules < 2 ^ 31 := by
        rw [Int32.toInt_zero]
        have fits := separated.1
        omega
      have belowPolicies := below
      rw [← rulesLength_of_compileRules rules compiled] at belowPolicies
      have enough := Int32.le_iff_toInt_le.mp (of_decide_eq_true accepted)
      have natural := @le_foldl_tryRule more _ (0, usedMore) belowPolicies
      apply decide_eq_true
      rw [Int32.le_iff_toInt_le]
      rcases separated.2 with nothing | ⟨one, each⟩ | together
      · exact Int.le_trans (Int32.le_iff_toInt_le.mp nothing) natural
      · by_cases nothing : n.toInt ≤ 0
        · exact Int.le_trans nothing natural
        · have someFewer := @exists_accepts_of_count_ne fewer _ (0, usedFewer) (by
            intro counted
            rw [counted] at enough
            exact nothing enough)
          have someMore := exists_accepts_of_rules rules compiled each withinFewer withinMore
            freer someFewer
          have counted := @lt_foldl_tryRule more _ (0, usedMore) someMore belowPolicies
          have single : n.toInt ≤ 1 := Int32.le_iff_toInt_le.mp one
          rw [Int32.toInt_zero] at counted
          omega
      · exact Int.le_trans enough (count_le_of_rules rules (0, usedFewer) (0, usedMore) compiled
          together withinFewer withinMore freer (Int.le_refl 0) below)

/-- If one of the rules accepts the fewer signatures, one accepts the more. -/
theorem exists_accepts_of_rules :
    ∀ (rules : SignaturePolicies) {policies : List Evaluator} {fewer more : List SignedData}
      {usedFewer usedMore : List Bool},
      compileRules deserializer identities rules = .ok policies →
        SeparatedEach deserializer identities entries rules →
        fewer ⊆ entries → more ⊆ entries →
        AtLeastAsFree deserializer identities (leavesOfRules rules) fewer usedFewer
          more usedMore →
        (∃ policy ∈ policies, (policy fewer usedFewer).1 = true) →
        ∃ policy ∈ policies, (policy more usedMore).1 = true
  | .nil, _, _, _, _, _, compiled, _, _, _, _, accepts => by
    cases compiled
    rcases accepts with ⟨_, member, _⟩
    cases member
  | .cons rule rest, _, _, _, _, _, compiled, separated, withinFewer, withinMore, freer,
    accepts => by
      simp only [compileRules, bind_ok_iff] at compiled
      rcases compiled with ⟨first, compiledRule, _, compiledRest, same⟩
      cases same
      rcases accepts with ⟨policy, member, accepted⟩
      rcases List.mem_cons.mp member with rfl | later
      · refine ⟨policy, List.mem_cons_self, ?_⟩
        exact accepts_of_accepts rule compiledRule separated.1 withinFewer withinMore
          (freer.mono (List.subset_append_left _ _)) accepted
      · rcases exists_accepts_of_rules rest compiledRest separated.2 withinFewer withinMore
            (freer.mono (List.subset_append_right _ _)) ⟨policy, later, accepted⟩ with
          ⟨found, inside, still⟩
        exact ⟨found, List.mem_cons_of_mem _ inside, still⟩

theorem count_le_of_rules :
    ∀ (rules : SignaturePolicies) {policies : List Evaluator} {fewer more : List SignedData}
      (stateFewer stateMore : Int32 × List Bool),
      compileRules deserializer identities rules = .ok policies →
        SeparatedRules deserializer identities entries rules →
        fewer ⊆ entries → more ⊆ entries →
        AtLeastAsFree deserializer identities (leavesOfRules rules)
          fewer stateFewer.2 more stateMore.2 →
        stateFewer.1.toInt ≤ stateMore.1.toInt →
        stateMore.1.toInt + rulesLength rules < 2 ^ 31 →
        (policies.foldl (tryRule fewer) stateFewer).1.toInt ≤
          (policies.foldl (tryRule more) stateMore).1.toInt
  | .nil, _, _, _, _, _, compiled, _, _, _, _, counted, _ => by
    cases compiled
    exact counted
  | .cons rule rest, _, fewer, more, stateFewer, stateMore, compiled,
    separated, withinFewer, withinMore, freer, counted, below => by
      simp only [compileRules, bind_ok_iff] at compiled
      rcases compiled with ⟨first, compiledRule, _, compiledRest, same⟩
      cases same
      rw [rulesLength] at below
      push_cast at below
      have still := @accepts_of_accepts rule first fewer more stateFewer.2 stateMore.2
          compiledRule separated.1 withinFewer withinMore
          (freer.mono (List.subset_append_left _ _))
      have step := tryRule_count_le (by omega) counted still
      rw [List.foldl_cons, List.foldl_cons]
      exact count_le_of_rules rest _ _ compiledRest separated.2.2 withinFewer withinMore
          (atLeastAsFree_of_tryRule withinFewer withinMore still freer compiledRule separated.2.1)
          step.1 (by omega)

end

/-! ## Deduplication of a larger set -/

theorem mem_deduplicateFrom {sds : List SignedData} {ids : List Bytes}
    (distinct : ∀ left ∈ sds, ∀ right ∈ sds,
      left.identity.bytes = right.identity.bytes → left = right)
    (member : sd ∈ sds) (fresh : sd.identity.bytes ∉ ids) :
    sd ∈ deduplicateFrom ids sds := by
  induction sds generalizing ids with
  | nil => cases member
  | cons first sds ih =>
    have later := fun left inside right others =>
        distinct left (List.mem_cons_of_mem first inside) right (List.mem_cons_of_mem first others)
    rw [deduplicateFrom]
    split_ifs with seen
    · rcases List.mem_cons.mp member with rfl | inside
      · exact absurd seen fresh
      · exact ih later inside fresh
    · by_cases same : sd = first
      · rw [same]
        exact List.mem_cons_self
      · rcases List.mem_cons.mp member with here | inside
        · exact absurd here same
        · apply List.mem_cons_of_mem
          apply ih later inside
          rw [List.mem_cons, not_or]
          refine ⟨?_, fresh⟩
          intro equal
          exact same (distinct sd member first List.mem_cons_self equal)

/-- At the start all suitable signatures are free. -/
theorem free_replicate {size : Nat} (enough : signedData.length ≤ size) :
    free suits signedData (List.replicate size false) = signedData.countP suits := by
  induction signedData generalizing size with
  | nil => rfl
  | cons _ signedData ih =>
    cases size with
    | zero => cases enough
    | succ size =>
      have later := ih (Nat.le_of_succ_le_succ enough)
      simp only [free, List.replicate_succ, List.zip_cons_cons, List.countP_cons] at later ⊢
      rw [later]
      simp

/--
If leaves do not compete for the signatures of the larger set and no two of
these carry the same identity, then a policy that accepts a set of signatures
accepts each set in which all of them occur, whatever its order.
-/
theorem evaluate_mono {policy : SignaturePolicy} {evaluator : Evaluator}
    {fewer more : List SignedData}
    (compiled : compile deserializer identities policy = .ok evaluator)
    (occur : ∀ sd ∈ fewer, sd ∈ more)
    (distinct : ∀ left ∈ more, ∀ right ∈ more,
      left.identity.bytes = right.identity.bytes → left = right)
    (separated : Separated deserializer identities more policy)
    (accepted : evaluate evaluator fewer = true) :
    evaluate evaluator more = true := by
  have kept : deduplicate fewer ⊆ fewer := fun sd member => (mem_of_mem_deduplicateFrom member).1
  have keptMore : deduplicate more ⊆ more := fun sd member => (mem_of_mem_deduplicateFrom member).1
  have inMore : deduplicate fewer ⊆ deduplicate more := fun sd member =>
      mem_deduplicateFrom distinct (occur sd (kept member)) List.not_mem_nil
  apply accepts_of_accepts policy compiled separated
      (fun sd member => occur sd (kept member)) keptMore ?_ accepted
  intro _ _ _ _
  have shorter (sds : List SignedData) : (deduplicate sds).length ≤ sds.length :=
    length_deduplicateFrom_le sds []
  rw [free_replicate (shorter fewer), free_replicate (shorter more)]
  have nodup := (nodup_identities_deduplicate fewer).of_map
  exact (List.subperm_of_subset nodup inMore).countP_le _

end

/-- What serves the administrator also serves the member, who is asked for later. -/
theorem evaluate_mono_both :
    evaluate (evaluateNOutOf 2 [evaluateSignedBy Sample.deserializer 2,
          evaluateSignedBy Sample.deserializer 1])
      [Sample.signed 3, Sample.signed 2, Sample.signed 1] = true ∧
    Sample.signed 2 ∈ [Sample.signed 3, Sample.signed 2, Sample.signed 1] := by
  refine ⟨?_, by decide⟩
  apply @evaluate_mono UInt8 UInt8 Sample.deserializer [2, 1] Sample.both _
      [Sample.signed 1, Sample.signed 2] _ rfl
  · decide
  · decide
  · refine ⟨by decide, Or.inr (Or.inr ⟨trivial, ?_, trivial, ?_, trivial⟩)⟩
    · intro second member
      left
      cases List.mem_singleton.mp member
      unfold Within
      decide
    · intro second member
      cases member
  · decide

/--
An administrator who signs before a member is taken for the member: the policy
accepts the two signatures in one order and refuses them in the other.
-/
theorem evaluate_not_mono :
    compile Sample.deserializer [1, 2] Sample.both = .ok Sample.evaluator ∧
      (∀ sd ∈ [Sample.signed 1, Sample.signed 2], sd ∈ [Sample.signed 2, Sample.signed 1]) ∧
      evaluate Sample.evaluator [Sample.signed 1, Sample.signed 2] = true ∧
      evaluate Sample.evaluator [Sample.signed 2, Sample.signed 1] = false := by
  refine ⟨rfl, ?_, ?_, ?_⟩ <;> decide

end Fabric.Policies.Monotonicity
