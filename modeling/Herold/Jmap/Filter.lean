import Herold.Store.Mailbox

/-!
# The filters of Email/query

A filter is a tree of conditions. The text conditions are not evaluated on the
messages: they are folded into one query to the full-text index, and every message
it returns is then taken to meet every text condition of the tree. The tree is
evaluated once more on what the index returned, without its text.

The index is a parameter. Thread-wide keyword conditions, which are not about one
message, and `bcc`, which the query to the index leaves out, are not modelled.
-/

namespace Herold.Jmap

open Herold.Go Herold.Store

structure Envelope where
  subject : Bytes := []
  sender : Bytes := []
  recipient : Bytes := []
  cc : Bytes := []
  bcc : Bytes := []
  replyTo : Bytes := []
  messageID : Bytes := []
  inReplyTo : Bytes := []
  date : Micros := 0
  deriving DecidableEq

/-- A message as a query sees it, with what was read from its blob. -/
structure Email where
  id : MessageID
  threadKey : Nat := 0
  receivedAt : Micros := 0
  size : Nat := 0
  flags : MessageFlags := 0
  keywords : List Bytes := []
  mailboxes : List MailboxID := []
  snoozedUntil : Option Micros := none
  envelope : Envelope := {}
  hasAttachment : Bool := false
  blobHeaders : List (Bytes × Bytes) := []
  deriving DecidableEq

/-- A `FilterCondition`. A mailbox identifier that does not parse is kept as none. -/
structure Condition where
  inMailbox : Option (Option MailboxID) := none
  inMailboxOtherThan : List (Option MailboxID) := []
  notInMailbox : List (Option MailboxID) := []
  before : Option Micros := none
  after : Option Micros := none
  minSize : Option Nat := none
  maxSize : Option Nat := none
  hasKeyword : Option Bytes := none
  notKeyword : Option Bytes := none
  hasAttachment : Option Bool := none
  header : List Bytes := []
  text : Option Bytes := none
  sender : Option Bytes := none
  recipient : Option Bytes := none
  cc : Option Bytes := none
  subject : Option Bytes := none
  body : Option Bytes := none
  deriving DecidableEq

inductive Operator where
  | and
  | or
  | not
  deriving DecidableEq

inductive Filter where
  | operator (op : Operator) (conditions : List Filter)
  | condition (condition : Condition)

def messageHasKeyword (email : Email) (keyword : Bytes) : Bool :=
  let name := toLower keyword
  if name = ascii "$seen" then email.flags &&& .seen ≠ 0
  else if name = ascii "$answered" then email.flags &&& .answered ≠ 0
  else if name = ascii "$flagged" then email.flags &&& .flagged ≠ 0
  else if name = ascii "$draft" then email.flags &&& .draft ≠ 0
  else email.keywords.any fun held => equalFold held name

def envelopeHeader (envelope : Envelope) (name : Bytes) : Bytes :=
  let name := toLower name
  if name = ascii "subject" then envelope.subject
  else if name = ascii "from" then envelope.sender
  else if name = ascii "to" then envelope.recipient
  else if name = ascii "cc" then envelope.cc
  else if name = ascii "bcc" then envelope.bcc
  else if name = ascii "reply-to" then envelope.replyTo
  else if name = ascii "message-id" then envelope.messageID
  else if name = ascii "in-reply-to" then envelope.inReplyTo
  else []

def matchHeader (email : Email) (header : List Bytes) : Bool :=
  match header with
  | [] => true
  | first :: values =>
    let name := toLower (trimSpace first)
    let wanted := match values with
      | [] => []
      | value :: _ => toLower (trimSpace value)
    let cached := envelopeHeader email.envelope name
    let got := if cached = [] then (email.blobHeaders.lookup name).getD [] else cached
    if got = [] then false
    else wanted = [] || (cutFirst wanted (toLower got)).isSome

/-- `matchConditionWithAttachments` for a candidate, whose text conditions are taken
to hold. -/
def matchCondition (email : Email) (condition : Condition) : Bool :=
  (match condition.inMailbox with
    | none => true
    | some none => false
    | some (some mailbox) => email.mailboxes.contains mailbox) &&
  (condition.inMailboxOtherThan.isEmpty ||
    email.mailboxes.any fun mailbox => !condition.inMailboxOtherThan.contains (some mailbox)) &&
  (condition.notInMailbox.isEmpty ||
    email.mailboxes.all fun mailbox => !condition.notInMailbox.contains (some mailbox)) &&
  (condition.before.all fun limit => decide (email.receivedAt < limit)) &&
  (condition.after.all fun limit => decide (limit ≤ email.receivedAt)) &&
  (condition.minSize.all fun limit => decide (limit ≤ email.size)) &&
  (condition.maxSize.all fun limit => decide (email.size ≤ limit)) &&
  (condition.hasKeyword.all fun keyword => messageHasKeyword email keyword) &&
  (condition.notKeyword.all fun keyword => !messageHasKeyword email keyword) &&
  (condition.hasAttachment.all fun wanted => email.hasAttachment == wanted) &&
  matchHeader email condition.header

/-- The text conditions of `filterHasTextPredicate`. -/
def Condition.hasText (condition : Condition) : Bool :=
  condition.text.isSome || condition.sender.isSome || condition.recipient.isSome ||
    condition.cc.isSome ||
    condition.subject.isSome || condition.body.isSome

mutual

/-- `matchFilterWithAttachments`. -/
def matchFilter (email : Email) : Filter → Bool
  | .condition condition => matchCondition email condition
  | .operator .and conditions => matchAll email conditions
  | .operator .or conditions => matchAny email conditions
  | .operator .not conditions => !matchAny email conditions

def matchAll (email : Email) : List Filter → Bool
  | [] => true
  | filter :: filters => matchFilter email filter && matchAll email filters

def matchAny (email : Email) : List Filter → Bool
  | [] => false
  | filter :: filters => matchFilter email filter || matchAny email filters

end

mutual

/-- `filterHasTextPredicate`. -/
def hasText : Filter → Bool
  | .condition condition => condition.hasText
  | .operator _ conditions => anyHasText conditions

def anyHasText : List Filter → Bool
  | [] => false
  | filter :: filters => hasText filter || anyHasText filters

end

/-- The fields of a `store.Query`; no mailbox stands for all. -/
structure Terms where
  mailboxID : Option MailboxID := none
  text : Bytes := []
  subject : List Bytes := []
  sender : List Bytes := []
  recipient : List Bytes := []
  cc : List Bytes := []
  body : List Bytes := []
  deriving DecidableEq

inductive Query where
  | mk (terms : Terms) (or : List Query)

def Query.terms : Query → Terms
  | .mk terms _ => terms

def Query.or : Query → List Query
  | .mk _ or => or

/-- `joinFTSTerms`. -/
def joinTerms (existing next : Bytes) : Bytes :=
  if existing = [] then next
  else if next = [] then existing
  else existing ++ [32] ++ next

def Condition.terms (condition : Condition) : Terms where
  mailboxID := condition.inMailbox.join
  text := joinTerms [] (condition.text.getD [])
  subject := condition.subject.toList
  sender := condition.sender.toList
  recipient := condition.recipient.toList
  cc := condition.cc.toList
  body := condition.body.toList

/-- The fields of `andLeafQuery`; the first mailbox wins. -/
def andTerms (left right : Terms) : Terms where
  mailboxID := left.mailboxID <|> right.mailboxID
  text := joinTerms left.text right.text
  subject := left.subject ++ right.subject
  sender := left.sender ++ right.sender
  recipient := left.recipient ++ right.recipient
  cc := left.cc ++ right.cc
  body := left.body ++ right.body

/-- `andLeafQuery`, which leaves out what the queries carry under `or`. -/
def andLeafQuery (left right : Query) : Query := .mk (andTerms left.terms right.terms) []

def queryBranches (query : Query) : List Query := if query.or.isEmpty then [query] else query.or

def andQuery (left right : Query) : Query :=
  match queryBranches left, queryBranches right with
  | [first], [second] => andLeafQuery first second
  | lefts, rights => .mk {} (lefts.flatMap fun first => rights.map fun second => andLeafQuery first second)

mutual

def mergeFTSQuery : Filter → Query
  | .condition condition => .mk condition.terms []
  | .operator .and conditions => mergeAnd conditions (.mk {} [])
  | .operator .or conditions => .mk {} (mergeOr conditions)
  | .operator .not _ => .mk {} []

def mergeAnd : List Filter → Query → Query
  | [], query => query
  | filter :: filters, query => mergeAnd filters (andQuery query (mergeFTSQuery filter))

def mergeOr : List Filter → List Query
  | [] => []
  | filter :: filters => mergeFTSQuery filter :: mergeOr filters

end

inductive Field where
  | all
  | subject
  | sender
  | recipient
  | cc
  | body
  deriving DecidableEq

/-- The full-text index: whether the words of a text are all in a field of the
message. -/
abbrev Index := Field → Bytes → Email → Bool

section Index

variable (index : Index)

def hit (field : Field) (text : Bytes) (email : Email) : Bool :=
  trimSpace text = [] || index field text email

def termsHit (terms : Terms) (email : Email) : Bool :=
  hit index .all terms.text email && terms.subject.all (hit index .subject · email) &&
    terms.sender.all (hit index .sender · email) &&
      terms.recipient.all (hit index .recipient · email) &&
    terms.cc.all (hit index .cc · email) && terms.body.all (hit index .body · email)

mutual

/-- `contentQuery`: what the index answers, exactly and without a limit. -/
def contentQuery (email : Email) : Query → Bool
  | .mk terms or =>
    (terms.mailboxID.all fun mailbox => email.mailboxes.contains mailbox) &&
      termsHit index terms email &&
      (or.isEmpty || anyContent email or)

def anyContent (email : Email) : List Query → Bool
  | [] => false
  | query :: queries => contentQuery email query || anyContent email queries

end

/-- `gatherCandidatesRaw`. -/
def gatherCandidates (account : List Email) (filter : Filter) : List Email :=
  if hasText filter then account.filter fun email => contentQuery index email (mergeFTSQuery filter)
  else account

def queryMatches (account : List Email) (filter : Filter) : List Email :=
  (gatherCandidates index account filter).filter fun email => matchFilter email filter

mutual

/-- The tree with each condition evaluated on the message by itself. -/
def meaning (email : Email) : Filter → Bool
  | .condition condition =>
    contentQuery index email (.mk condition.terms []) && matchCondition email condition
  | .operator .and conditions => meaningAll email conditions
  | .operator .or conditions => meaningAny email conditions
  | .operator .not conditions => !meaningAny email conditions

def meaningAll (email : Email) : List Filter → Bool
  | [] => true
  | filter :: filters => meaning email filter && meaningAll email filters

def meaningAny (email : Email) : List Filter → Bool
  | [] => false
  | filter :: filters => meaning email filter || meaningAny email filters

end

mutual

/-- Whether the index is asked for a mailbox on behalf of the tree. -/
def asksMailbox : Filter → Bool
  | .condition condition => condition.inMailbox.join.isSome
  | .operator .not _ => false
  | .operator _ conditions => anyAsksMailbox conditions

def anyAsksMailbox : List Filter → Bool
  | [] => false
  | filter :: filters => asksMailbox filter || anyAsksMailbox filters

end

def termsSought (reach : Bool) (terms : Terms) (email : Email) : Bool :=
  (!reach || terms.mailboxID.all fun mailbox => email.mailboxes.contains mailbox) &&
    termsHit index terms email

mutual

/-- Whether the message has the text that the tree asks for, and is in the mailbox where that
reaches the index: of several under an AND the first one does. -/
def sought (email : Email) (reach : Bool) : Filter → Bool
  | .condition condition => termsSought index reach condition.terms email
  | .operator .and conditions => soughtAll email reach conditions
  | .operator .or conditions => conditions.isEmpty || soughtAny email reach conditions
  | .operator .not _ => true

def soughtAll (email : Email) (reach : Bool) : List Filter → Bool
  | [] => true
  | filter :: filters =>
    (!hasText filter || sought email reach filter) && soughtAll email
      (reach && !asksMailbox filter) filters

def soughtAny (email : Email) (reach : Bool) : List Filter → Bool
  | [] => false
  | filter :: filters => sought email reach filter || soughtAny email reach filters

end

end Index

section Conditions

def flat (query : Query) : Bool := (queryBranches query).all fun branch => branch.or.isEmpty

mutual

/-- No branches are dropped: under an AND, an OR with text has no further OR directly
below it. -/
def KeptText : Filter → Prop
  | .condition _ => True
  | .operator .and conditions => KeptAll conditions
  | .operator .or conditions => KeptEach conditions
  | .operator .not _ => True

def KeptAll : List Filter → Prop
  | [] => True
  | filter :: filters =>
    (hasText filter = true → KeptText filter ∧ flat (mergeFTSQuery filter) = true) ∧ KeptAll filters

def KeptEach : List Filter → Prop
  | [] => True
  | filter :: filters => KeptText filter ∧ KeptEach filters

end

def Joins (index : Index) : Prop :=
  ∀ left right email, left ≠ [] → right ≠ [] →
    hit index .all (left ++ [32] ++ right) email =
      (hit index .all left email && hit index .all right email)

/-- A message that has what some branch seeks and meets the rest of some branch has and meets
both of one. -/
def SameBranch (reach : Bool) (conditions : List Filter) : Prop :=
  ∀ index, Joins index → ∀ email, soughtAny index email reach conditions = true →
    matchAny email conditions = true →
      ∃ filter ∈ conditions, sought index email reach filter = true ∧ matchFilter email filter = true

mutual

/-- To take the text for granted does no harm: below a NOT it decides nothing, and below an OR
it goes with the rest of its branch. -/
def Presumable (reach : Bool) : Filter → Prop
  | .condition _ => True
  | .operator .and conditions => PresumableAll reach conditions
  | .operator .or conditions =>
    anyHasText conditions = false ∨ PresumableEach reach conditions ∧ SameBranch reach conditions
  | .operator .not conditions =>
    ∀ index, Joins index → ∀ email, meaningAny index email conditions = matchAny email conditions

def PresumableAll (reach : Bool) : List Filter → Prop
  | [] => True
  | filter :: filters =>
    (hasText filter = true → Presumable reach filter) ∧
      PresumableAll (reach && !asksMailbox filter) filters

def PresumableEach (reach : Bool) : List Filter → Prop
  | [] => True
  | filter :: filters => Presumable reach filter ∧ PresumableEach reach filters

end

/-- So it is for branches whose conditions apart from the text hold of the same messages. -/
theorem alike_same_branch (reach : Bool) (conditions : List Filter)
    (alike : ∀ email, ∀ left ∈ conditions, ∀ right ∈ conditions,
      matchFilter email left = matchFilter email right) : SameBranch reach conditions := by
  intro index _ email asked matched
  have branch : ∃ filter ∈ conditions, sought index email reach filter = true := by
    clear alike matched
    induction conditions with
    | nil => cases asked
    | cons filter filters ih =>
      rw [soughtAny, Bool.or_eq_true] at asked
      rcases asked with here | later
      · exact ⟨filter, List.mem_cons_self, here⟩
      · obtain ⟨other, member, found⟩ := ih later
        exact ⟨other, List.mem_cons_of_mem _ member, found⟩
  have holds : ∃ filter ∈ conditions, matchFilter email filter = true := by
    clear alike asked branch
    induction conditions with
    | nil => cases matched
    | cons filter filters ih =>
      rw [matchAny, Bool.or_eq_true] at matched
      rcases matched with here | later
      · exact ⟨filter, List.mem_cons_self, here⟩
      · obtain ⟨other, member, found⟩ := ih later
        exact ⟨other, List.mem_cons_of_mem _ member, found⟩
  obtain ⟨filter, member, found⟩ := branch
  obtain ⟨other, among, met⟩ := holds
  exact ⟨filter, member, found, by rw [alike email filter member other among, met]⟩

end Conditions

section Index

variable (index : Index)

variable {index} {email : Email}

theorem hit_blank (field : Field) : hit index field [] email = true := rfl

theorem hit_joined (joins : Joins index) (left right : Bytes) :
    hit index .all (joinTerms left right) email =
      (hit index .all left email && hit index .all right email) := by
  unfold joinTerms
  split
  · rename_i empty
    rw [empty, hit_blank, Bool.true_and]
  · split
    · rename_i empty
      rw [empty, hit_blank, Bool.and_true]
    · rename_i left' right'
      exact joins left right email left' right'

theorem terms_joined (joins : Joins index) (left right : Terms) :
    termsHit index (andTerms left right) email =
      (termsHit index left email && termsHit index right email) := by
  simp only [termsHit, andTerms, hit_joined joins, List.all_append]
  ac_rfl

theorem any_content {queries : List Query} :
    anyContent index email queries = queries.any (contentQuery index email) := by
  induction queries with
  | nil => rfl
  | cons query queries ih => rw [anyContent, ih, List.any_cons]

theorem content_branches {query : Query} (found : contentQuery index email query = true) :
    ∃ branch ∈ queryBranches query, contentQuery index email branch = true := by
  obtain ⟨terms, or⟩ := query
  unfold queryBranches
  cases or with
  | nil => exact ⟨_, List.mem_singleton_self _, found⟩
  | cons first others =>
    simp only [contentQuery, Bool.and_eq_true] at found
    have any : ((first :: others).isEmpty || anyContent index email (first :: others)) = true := found.2
    rw [List.isEmpty_cons, Bool.false_or, any_content, List.any_eq_true] at any
    exact any

theorem content_leaf (joins : Joins index) {left right : Query}
    (leftFound : contentQuery index email left = true)
    (rightFound : contentQuery index email right = true) :
    contentQuery index email (andLeafQuery left right) = true := by
  obtain ⟨leftTerms, _⟩ := left
  obtain ⟨rightTerms, _⟩ := right
  simp only [contentQuery, andLeafQuery, Query.terms, Bool.and_eq_true, terms_joined joins] at *
  refine ⟨⟨?_, leftFound.1.2, rightFound.1.2⟩, rfl⟩
  show Option.all _ (leftTerms.mailboxID <|> rightTerms.mailboxID) = true
  cases box : leftTerms.mailboxID with
  | none => exact rightFound.1.1
  | some mailbox =>
    rw [box] at leftFound
    exact leftFound.1.1

theorem content_and (joins : Joins index) {left right : Query}
    (leftFound : contentQuery index email left = true)
    (rightFound : contentQuery index email right = true) :
    contentQuery index email (andQuery left right) = true := by
  obtain ⟨first, firstMember, firstFound⟩ := content_branches leftFound
  obtain ⟨second, secondMember, secondFound⟩ := content_branches rightFound
  have both := content_leaf joins firstFound secondFound
  unfold andQuery
  split
  · rename_i only only' leftBranches rightBranches
    rw [leftBranches, List.mem_singleton] at firstMember
    rw [rightBranches, List.mem_singleton] at secondMember
    rw [← firstMember, ← secondMember]
    exact both
  · have listed : andLeafQuery first second ∈ (queryBranches left).flatMap fun first =>
        (queryBranches right).map fun second => andLeafQuery first second :=
      List.mem_flatMap.mpr ⟨first, firstMember, List.mem_map_of_mem secondMember⟩
    rw [contentQuery, any_content,
      Bool.or_eq_true_iff.mpr (Or.inr (List.any_eq_true.mpr ⟨_, listed, both⟩))]
    rfl

mutual

theorem meaning_content (joins : Joins index) : ∀ filter, meaning index email filter = true →
    contentQuery index email (mergeFTSQuery filter) = true
  | .condition condition, holds => by
    rw [meaning, Bool.and_eq_true] at holds
    exact holds.1
  | .operator .and conditions, holds => meaning_content_all joins conditions (.mk {} []) rfl holds
  | .operator .or conditions, holds => by
    have any := meaning_content_any joins conditions holds
    rw [mergeFTSQuery, contentQuery, any_content, any, Bool.or_true]
    rfl
  | .operator .not conditions, _ => rfl

theorem meaning_content_all (joins : Joins index) :
    ∀ filters query, contentQuery index email query = true →
    meaningAll index email filters = true → contentQuery index email (mergeAnd filters query) = true
  | [], query, found, _ => found
  | filter :: filters, query, found, holds => by
    rw [meaningAll, Bool.and_eq_true] at holds
    rw [mergeAnd]
    exact meaning_content_all joins filters _
      (content_and joins found (meaning_content joins filter holds.1)) holds.2

theorem meaning_content_any (joins : Joins index) : ∀ filters, meaningAny index email filters = true →
    (mergeOr filters).any (contentQuery index email) = true
  | [], holds => by cases holds
  | filter :: filters, holds => by
    rw [meaningAny, Bool.or_eq_true] at holds
    rw [mergeOr, List.any_cons, Bool.or_eq_true]
    rcases holds with here | later
    · exact Or.inl (meaning_content joins filter here)
    · exact Or.inr (meaning_content_any joins filters later)

end

theorem match_place {condition : Condition} (matched : matchCondition email condition = true) :
    Option.all (fun mailbox => email.mailboxes.contains mailbox) condition.inMailbox.join = true := by
  simp only [matchCondition, Bool.and_eq_true] at matched
  have inMailbox := matched.1.1.1.1.1.1.1.1.1.1
  cases box : condition.inMailbox with
  | none => rfl
  | some parsed =>
    cases parsed with
    | none => rfl
    | some mailbox =>
      rw [box] at inMailbox
      exact inMailbox

theorem condition_without_text {condition : Condition} (free : condition.hasText = false) :
    (contentQuery index email (.mk condition.terms []) && matchCondition email condition) =
      matchCondition email condition := by
  simp only [Condition.hasText, Bool.or_eq_false_iff, Option.isSome_eq_false_iff,
    Option.isNone_iff_eq_none] at free
  obtain ⟨⟨⟨⟨⟨text, sender⟩, recipient⟩, cc⟩, subject⟩, body⟩ := free
  cases matched : matchCondition email condition with
  | false => rw [Bool.and_false]
  | true =>
    rw [Bool.and_true]
    have place := match_place matched
    simpa [contentQuery, termsHit, Condition.terms, text, sender, recipient, cc, subject,
      body, joinTerms,
      hit_blank] using place

mutual

theorem meaning_without_text : ∀ filter, hasText filter = false →
    meaning index email filter = matchFilter email filter
  | .condition condition, free => by
    rw [meaning, matchFilter]
    exact condition_without_text free
  | .operator .and conditions, free => by
    rw [meaning, matchFilter]
    exact meaning_all_without_text conditions free
  | .operator .or conditions, free => by
    rw [meaning, matchFilter]
    exact meaning_any_without_text conditions free
  | .operator .not conditions, free => by
    rw [meaning, matchFilter, meaning_any_without_text conditions free]

theorem meaning_all_without_text : ∀ filters, anyHasText filters = false →
    meaningAll index email filters = matchAll email filters
  | [], _ => rfl
  | filter :: filters, free => by
    rw [anyHasText, Bool.or_eq_false_iff] at free
    rw [meaningAll, matchAll, meaning_without_text filter free.1,
      meaning_all_without_text filters free.2]

theorem meaning_any_without_text : ∀ filters, anyHasText filters = false →
    meaningAny index email filters = matchAny email filters
  | [], _ => rfl
  | filter :: filters, free => by
    rw [anyHasText, Bool.or_eq_false_iff] at free
    rw [meaningAny, matchAny, meaning_without_text filter free.1,
      meaning_any_without_text filters free.2]

end

mutual

/-- What a query finds, with its mailboxes or without. -/
def queryFinds (index : Index) (email : Email) (reach : Bool) : Query → Bool
  | .mk terms or => termsSought index reach terms email && (or.isEmpty || anyFinds index email reach or)

def anyFinds (index : Index) (email : Email) (reach : Bool) : List Query → Bool
  | [] => false
  | query :: queries => queryFinds index email reach query || anyFinds index email reach queries

end

theorem any_found {reach : Bool} {queries : List Query} :
    anyFinds index email reach queries = queries.any (queryFinds index email reach) := by
  induction queries with
  | nil => rfl
  | cons query queries ih => rw [anyFinds, ih, List.any_cons]

mutual

theorem content_found : ∀ query, contentQuery index email query = queryFinds index email true query
  | .mk terms or => by
    rw [contentQuery, queryFinds, any_content_found or]
    rfl

theorem any_content_found :
    ∀ queries, anyContent index email queries = anyFinds index email true queries
  | [] => rfl
  | query :: queries => by rw [anyContent, anyFinds, content_found query, any_content_found queries]

end

/-- A query that was folded from a tree has its own terms or branches, not both. -/
def Split (query : Query) : Prop := query.or.isEmpty = false → query.terms = {}

theorem found_branches {reach : Bool} {query : Query} (split : Split query) :
    queryFinds index email reach query = (queryBranches query).any (queryFinds index email reach) := by
  obtain ⟨terms, or⟩ := query
  unfold queryBranches
  cases or with
  | nil => simp [Query.or]
  | cons first others =>
    have blank : terms = {} := split rfl
    change (termsSought index reach terms email &&
      (false || anyFinds index email reach (first :: others))) = _
    have free : termsSought index reach {} email = true := by cases reach <;> rfl
    rw [blank, any_found, free, Bool.true_and, Bool.false_or]
    rfl

theorem flat_leaves {terms : Terms} {queries : List Query}
    (leaves : ∀ query ∈ queries, query.or.isEmpty = true) : flat (.mk terms queries) = true := by
  cases queries with
  | nil => rfl
  | cons first others => exact List.all_eq_true.mpr leaves

theorem and_split (left right : Query) :
    Split (andQuery left right) ∧ flat (andQuery left right) = true := by
  unfold andQuery
  split
  · exact ⟨fun branches => (by cases branches), rfl⟩
  · refine ⟨fun _ => rfl, flat_leaves fun branch member => ?_⟩
    obtain ⟨first, _, listed⟩ := List.mem_flatMap.mp member
    obtain ⟨second, _, rfl⟩ := List.mem_map.mp listed
    rfl

theorem found_leaf {reach : Bool} {query : Query} (leaf : query.or.isEmpty = true) :
    queryFinds index email reach query = termsSought index reach query.terms email := by
  obtain ⟨terms, or⟩ := query
  change (termsSought index reach terms email && (or.isEmpty || anyFinds index email reach or)) = _
  rw [show or.isEmpty = true from leaf, Bool.true_or, Bool.and_true]
  rfl

theorem sought_weaker {reach less : Bool} {terms : Terms} (fewer : less = true → reach = true)
    (asked : termsSought index reach terms email = true) :
      termsSought index less terms email = true := by
  cases less with
  | true => rwa [fewer rfl] at asked
  | false =>
    rw [termsSought, Bool.and_eq_true] at asked ⊢
    exact ⟨rfl, asked.2⟩

/-- Of two mailboxes the first is asked for. -/
theorem terms_sought_joined (joins : Joins index) {reach : Bool} {left right : Terms}
    (asked : termsSought index reach (andTerms left right) email = true) :
    termsSought index reach left email = true ∧
      termsSought index (reach && left.mailboxID.isNone) right email = true := by
  rw [termsSought, Bool.and_eq_true, terms_joined joins, Bool.and_eq_true] at asked
  obtain ⟨place, here, there⟩ := asked
  have joined : (andTerms left right).mailboxID = (left.mailboxID <|> right.mailboxID) := rfl
  rw [joined] at place
  rw [termsSought, termsSought, here, there, Bool.and_true, Bool.and_true]
  cases reach with
  | false => exact ⟨rfl, rfl⟩
  | true =>
    cases box : left.mailboxID with
    | none =>
      rw [box] at place
      exact ⟨rfl, place⟩
    | some mailbox =>
      rw [box] at place
      exact ⟨place, rfl⟩

theorem some_branch (query : Query) : ∃ branch, branch ∈ queryBranches query := by
  unfold queryBranches
  split
  · exact ⟨query, List.mem_singleton_self _⟩
  · rename_i branches
    exact List.exists_mem_of_ne_nil _ fun empty => branches (List.isEmpty_iff.mpr empty)

theorem found_and (joins : Joins index) {reach : Bool} {left right : Query}
    (asked : queryFinds index email reach (andQuery left right) = true) :
    ∃ first ∈ queryBranches left, ∃ second ∈ queryBranches right,
      termsSought index reach first.terms email = true ∧
        termsSought index (reach && first.terms.mailboxID.isNone) second.terms email = true := by
  have leaf : ∀ first second, queryFinds index email reach (andLeafQuery first second) = true →
      termsSought index reach (andTerms first.terms second.terms) email = true := by
    intro first second here
    rwa [found_leaf rfl] at here
  unfold andQuery at asked
  split at asked
  · rename_i first second leftBranches rightBranches
    rw [leftBranches, rightBranches]
    exact ⟨first, List.mem_singleton_self _, second, List.mem_singleton_self _,
      terms_sought_joined joins (leaf first second asked)⟩
  · have crossed : ∃ branch ∈ (queryBranches left).flatMap fun first =>
        (queryBranches right).map fun second => andLeafQuery first second,
          queryFinds index email reach branch = true := by
      rw [queryFinds, Bool.and_eq_true, Bool.or_eq_true, any_found, List.any_eq_true] at asked
      refine asked.2.resolve_left fun empty => ?_
      -- each query has a branch, so some pair is joined
      obtain ⟨first, firstMember⟩ := some_branch left
      obtain ⟨second, secondMember⟩ := some_branch right
      have joined : andLeafQuery first second ∈ (queryBranches left).flatMap fun first =>
          (queryBranches right).map fun second => andLeafQuery first second :=
        List.mem_flatMap.mpr ⟨first, firstMember, List.mem_map_of_mem secondMember⟩
      rw [List.isEmpty_iff.mp empty] at joined
      cases joined
    obtain ⟨branch, member, here⟩ := crossed
    obtain ⟨first, firstMember, listed⟩ := List.mem_flatMap.mp member
    obtain ⟨second, secondMember, rfl⟩ := List.mem_map.mp listed
    exact ⟨first, firstMember, second, secondMember, terms_sought_joined joins (leaf first second here)⟩

theorem found_of_branch {reach : Bool} {query branch : Query} (split : Split query)
    (flattened : flat query = true) (member : branch ∈ queryBranches query)
    (here : termsSought index reach branch.terms email = true) :
      queryFinds index email reach query = true := by
  rw [found_branches split, List.any_eq_true]
  refine ⟨branch, member, ?_⟩
  rw [found_leaf (List.all_eq_true.mp flattened branch member)]
  exact here

mutual

theorem merge_split : ∀ filter, Split (mergeFTSQuery filter)
  | .condition _ => fun branches => by cases branches
  | .operator .and conditions => (merge_and_split conditions (.mk {} []) (fun _ => rfl) rfl).1
  | .operator .or _ => fun _ => rfl
  | .operator .not _ => fun _ => rfl

theorem merge_and_split : ∀ filters query, Split query → flat query = true →
    Split (mergeAnd filters query) ∧ flat (mergeAnd filters query) = true
  | [], _, split, flattened => ⟨split, flattened⟩
  | filter :: filters, query, _, _ => by
    rw [mergeAnd]
    obtain ⟨split, flattened⟩ := and_split query (mergeFTSQuery filter)
    exact merge_and_split filters _ split flattened

end

/-- No branch of the query asks for a mailbox. -/
def bareQuery (query : Query) : Bool :=
    (queryBranches query).all fun branch => branch.terms.mailboxID.isNone

theorem bare_branches {terms : Terms} {queries : List Query} (own : terms.mailboxID = none)
    (each : ∀ query ∈ queries, query.terms.mailboxID = none) :
      bareQuery (.mk terms queries) = true := by
  unfold bareQuery queryBranches
  cases queries with
  | nil => simpa [Query.or, Query.terms] using own
  | cons first others =>
    change (first :: others).all _ = true
    rw [List.all_eq_true]
    exact fun query member => by rw [each query member, Option.isNone_none]

theorem bare_own {query : Query} (split : Split query) (free : bareQuery query = true) :
    query.terms.mailboxID = none := by
  obtain ⟨terms, or⟩ := query
  cases or with
  | nil => simpa [bareQuery, queryBranches, Query.or, Query.terms] using free
  | cons first others => rw [split rfl]

theorem bare_and {left right : Query} (leftBare : bareQuery left = true)
    (rightBare : bareQuery right = true) :
    bareQuery (andQuery left right) = true := by
  have joined : ∀ first ∈ queryBranches left, ∀ second ∈ queryBranches right,
      (andLeafQuery first second).terms.mailboxID = none := by
    intro first firstMember second secondMember
    have here := Option.isNone_iff_eq_none.mp (List.all_eq_true.mp leftBare first firstMember)
    have there := Option.isNone_iff_eq_none.mp (List.all_eq_true.mp rightBare second secondMember)
    change (first.terms.mailboxID <|> second.terms.mailboxID) = none
    rw [here, there]
    rfl
  unfold andQuery
  split
  · rename_i first second leftBranches rightBranches
    refine bare_branches (joined first ?_ second ?_) (by simp)
    · rw [leftBranches]
      exact List.mem_singleton_self _
    · rw [rightBranches]
      exact List.mem_singleton_self _
  · refine bare_branches rfl fun branch member => ?_
    obtain ⟨first, firstMember, listed⟩ := List.mem_flatMap.mp member
    obtain ⟨second, secondMember, rfl⟩ := List.mem_map.mp listed
    exact joined first firstMember second secondMember

mutual

theorem bare_of_asks : ∀ filter, asksMailbox filter = false → bareQuery (mergeFTSQuery filter) = true
  | .condition condition, free => by
    rw [asksMailbox, Option.isSome_eq_false_iff, Option.isNone_iff_eq_none] at free
    exact bare_branches free (by simp)
  | .operator .and conditions, free => bare_of_asks_all conditions (.mk {} []) free rfl
  | .operator .or conditions, free => bare_branches rfl (bare_of_asks_any conditions free)
  | .operator .not _, _ => rfl

theorem bare_of_asks_all : ∀ filters query, anyAsksMailbox filters = false → bareQuery query = true →
    bareQuery (mergeAnd filters query) = true
  | [], _, _, own => own
  | filter :: filters, query, free, own => by
    rw [anyAsksMailbox, Bool.or_eq_false_iff] at free
    rw [mergeAnd]
    exact bare_of_asks_all filters _ free.2 (bare_and own (bare_of_asks filter free.1))

theorem bare_of_asks_any : ∀ filters, anyAsksMailbox filters = false →
    ∀ query ∈ mergeOr filters, query.terms.mailboxID = none
  | [], _, query, member => by cases member
  | filter :: filters, free, query, member => by
    rw [anyAsksMailbox, Bool.or_eq_false_iff] at free
    rw [mergeOr, List.mem_cons] at member
    rcases member with rfl | later
    · exact bare_own (merge_split filter) (bare_of_asks filter free.1)
    · exact bare_of_asks_any filters free.2 query later

end

mutual

theorem sought_less {reach less : Bool} (fewer : less = true → reach = true) : ∀ filter,
    sought index email reach filter = true → sought index email less filter = true
  | .condition condition, asked => by
    rw [sought] at asked ⊢
    exact sought_weaker fewer asked
  | .operator .and conditions, asked => by
    rw [sought] at asked ⊢
    exact sought_all_less fewer conditions asked
  | .operator .or conditions, asked => by
    rw [sought, Bool.or_eq_true] at asked ⊢
    exact asked.imp_right (sought_any_less fewer conditions)
  | .operator .not _, _ => rfl

theorem sought_all_less {reach less : Bool} (fewer : less = true → reach = true) : ∀ filters,
    soughtAll index email reach filters = true → soughtAll index email less filters = true
  | [], _ => rfl
  | filter :: filters, asked => by
    rw [soughtAll, Bool.and_eq_true, Bool.or_eq_true] at asked ⊢
    refine ⟨asked.1.imp_right (sought_less fewer filter), sought_all_less ?_ filters asked.2⟩
    rw [Bool.and_eq_true, Bool.and_eq_true]
    exact And.imp_left fewer

theorem sought_any_less {reach less : Bool} (fewer : less = true → reach = true) : ∀ filters,
    soughtAny index email reach filters = true → soughtAny index email less filters = true
  | [], asked => by cases asked
  | filter :: filters, asked => by
    rw [soughtAny, Bool.or_eq_true] at asked ⊢
    exact asked.imp (sought_less fewer filter) (sought_any_less fewer filters)

end

mutual

/-- Where no branches are dropped, what the query finds is what the tree seeks. -/
theorem found_sought (joins : Joins index) : ∀ filter reach, KeptText filter →
    queryFinds index email reach (mergeFTSQuery filter) = true → sought index email reach filter = true
  | .condition condition, reach, _, asked => by
    rw [mergeFTSQuery, found_leaf rfl] at asked
    exact asked
  | .operator .and conditions, reach, kept, asked => by
    have all := (found_sought_all joins conditions (.mk {} []) reach kept (fun _ => rfl) rfl asked).2
    rw [sought]
    rwa [show bareQuery (.mk {} []) = true from rfl, Bool.and_true] at all
  | .operator .or conditions, reach, kept, asked => by
    rw [mergeFTSQuery, queryFinds, Bool.and_eq_true, Bool.or_eq_true, any_found] at asked
    rw [sought, Bool.or_eq_true]
    cases conditions with
    | nil => exact .inl rfl
    | cons filter filters =>
      refine .inr (found_sought_any joins _ reach kept (asked.2.resolve_left fun empty => ?_))
      cases empty
  | .operator .not _, _, _, _ => rfl

theorem found_sought_all (joins : Joins index) : ∀ filters query reach, KeptAll filters → Split query →
    flat query = true → queryFinds index email reach (mergeAnd filters query) = true →
    queryFinds index email reach query = true ∧
    soughtAll index email (reach && bareQuery query) filters = true
  | [], _, _, _, _, _, asked => ⟨asked, rfl⟩
  | filter :: filters, query, reach, kept, split, flattened, asked => by
    obtain ⟨joinedSplit, joinedFlat⟩ := and_split query (mergeFTSQuery filter)
    rw [mergeAnd] at asked
    obtain ⟨joined, rest⟩ := found_sought_all joins filters _ reach kept.2 joinedSplit joinedFlat asked
    obtain ⟨first, firstMember, second, secondMember, here, there⟩ := found_and joins joined
    refine ⟨found_of_branch split flattened firstMember here, ?_⟩
    rw [soughtAll, Bool.and_eq_true, Bool.or_eq_true, Bool.not_eq_true']
    constructor
    · rcases Bool.eq_false_or_eq_true (hasText filter) with text | free
      · obtain ⟨keeps, flattened'⟩ := kept.1 text
        refine .inr (found_sought joins filter _ keeps
          (found_of_branch (merge_split filter) flattened' secondMember (sought_weaker ?_ there)))
        rw [Bool.and_eq_true, Bool.and_eq_true]
        exact And.imp_right fun free => List.all_eq_true.mp free first firstMember
      · exact .inl free
    · refine sought_all_less ?_ filters rest
      rw [Bool.and_eq_true, Bool.and_eq_true, Bool.and_eq_true, Bool.not_eq_true']
      exact fun ⟨⟨reaches, free⟩, unasked⟩ => ⟨reaches, bare_and free (bare_of_asks filter unasked)⟩

theorem found_sought_any (joins : Joins index) : ∀ filters reach, KeptEach filters →
    (mergeOr filters).any (queryFinds index email reach) = true →
    soughtAny index email reach filters = true
  | [], _, _, asked => by cases asked
  | filter :: filters, reach, kept, asked => by
    rw [mergeOr, List.any_cons, Bool.or_eq_true] at asked
    rw [soughtAny, Bool.or_eq_true]
    exact asked.imp (found_sought joins filter reach kept.1)
      (found_sought_any joins filters reach kept.2)

end

mutual

/-- Where the text may be presumed, the second evaluation settles what the index left open, and
does not reject what the tree is true of. -/
theorem presumed_exact (joins : Joins index) : ∀ filter reach, Presumable reach filter →
    (sought index email reach filter = true → matchFilter email filter = true →
      meaning index email filter = true) ∧
    (meaning index email filter = true → matchFilter email filter = true)
  | .condition condition, reach, _ => by
    rw [meaning, matchFilter, sought, termsSought, Bool.and_eq_true, Bool.and_eq_true]
    refine ⟨fun asked matched => ⟨?_, matched⟩, fun holds => holds.2⟩
    rw [contentQuery, Bool.and_eq_true, Bool.and_eq_true]
    exact ⟨⟨match_place matched, asked.2⟩, rfl⟩
  | .operator .and conditions, reach, presumed => by
    rw [meaning, matchFilter, sought]
    exact presumed_all_exact joins conditions reach presumed
  | .operator .or conditions, reach, presumed => by
    rw [meaning, matchFilter, sought]
    rcases presumed with free | ⟨each, same⟩
    · rw [meaning_any_without_text conditions free]
      exact ⟨fun _ matched => matched, fun holds => holds⟩
    · obtain ⟨exactly, sound⟩ := presumed_each_exact joins conditions reach each
      refine ⟨fun asked matched => ?_, sound⟩
      rw [Bool.or_eq_true] at asked
      refine exactly (same index joins email (asked.resolve_left fun empty => ?_) matched)
      rw [List.isEmpty_iff.mp empty] at matched
      cases matched
  | .operator .not conditions, reach, presumed => by
    rw [meaning, matchFilter, presumed index joins email]
    exact ⟨fun _ matched => matched, fun holds => holds⟩

theorem presumed_all_exact (joins : Joins index) : ∀ filters reach, PresumableAll reach filters →
    (soughtAll index email reach filters = true → matchAll email filters = true →
      meaningAll index email filters = true) ∧
    (meaningAll index email filters = true → matchAll email filters = true)
  | [], _, _ => ⟨fun _ _ => rfl, fun _ => rfl⟩
  | filter :: filters, reach, presumed => by
    rw [soughtAll, meaningAll, matchAll, Bool.and_eq_true, Bool.and_eq_true, Bool.and_eq_true,
      Bool.or_eq_true, Bool.not_eq_true']
    obtain ⟨laterExactly, laterSound⟩ := presumed_all_exact joins filters _ presumed.2
    rcases Bool.eq_false_or_eq_true (hasText filter) with text | free
    · obtain ⟨exactly, sound⟩ := presumed_exact joins filter reach (presumed.1 text)
      rw [text]
      refine ⟨fun asked matched => ⟨exactly (asked.1.resolve_left Bool.noConfusion) matched.1,
        laterExactly asked.2 matched.2⟩, And.imp sound laterSound⟩
    · rw [meaning_without_text filter free]
      exact ⟨fun asked matched => ⟨matched.1, laterExactly asked.2 matched.2⟩, And.imp_right laterSound⟩

theorem presumed_each_exact (joins : Joins index) : ∀ filters reach, PresumableEach reach filters →
    ((∃ filter ∈ filters, sought index email reach filter = true ∧ matchFilter email filter = true) →
      meaningAny index email filters = true) ∧
    (meaningAny index email filters = true → matchAny email filters = true)
  | [], _, _ => ⟨fun ⟨_, member, _⟩ => (by cases member), fun holds => (by cases holds)⟩
  | filter :: filters, reach, presumed => by
    obtain ⟨exactly, sound⟩ := presumed_exact joins filter reach presumed.1
    obtain ⟨laterExactly, laterSound⟩ := presumed_each_exact joins filters reach presumed.2
    rw [meaningAny, matchAny, Bool.or_eq_true, Bool.or_eq_true, List.exists_mem_cons_iff]
    exact ⟨Or.imp (fun both => exactly both.1 both.2) laterExactly, Or.imp sound laterSound⟩

end

def fromOrToAlice : List Filter :=
  [.condition { sender := some (ascii "alice"), inMailbox := some (some 1) },
    .condition { recipient := some (ascii "alice"), inMailbox := some (some 1) }]

theorem from_or_to_presumable : Presumable true (.operator .or fromOrToAlice) := by
  refine .inr ⟨⟨trivial, trivial, trivial⟩, alike_same_branch true fromOrToAlice ?_⟩
  intro email left inLeft right inRight
  simp only [fromOrToAlice, List.mem_cons, List.not_mem_nil, or_false] at inLeft inRight
  rcases inLeft with rfl | rfl <;> rcases inRight with rfl | rfl <;> rfl

theorem empty_index_joins : Joins (fun _ _ _ => false) := by
  intro left right email _ _
  simp only [hit, Bool.or_false]
  rw [Bool.eq_iff_iff, Bool.and_eq_true, decide_eq_true_eq, decide_eq_true_eq, decide_eq_true_eq,
    trim_space_empty, trim_space_empty, trim_space_empty, List.append_assoc, List.singleton_append,
    runes_before_ascii left 32 right (by decide), runes_ascii_cons 32 right (by decide),
      List.all_append,
    List.all_cons, Bool.and_eq_true]
  rfl

end Index

end Herold.Jmap
