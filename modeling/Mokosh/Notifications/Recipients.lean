import Mathlib.Data.String.Basic
import Mokosh.Lib.Keyed
import Mokosh.Lib.SortedMap
import Mokosh.Notifications.Render

/-! # Who is sent a notification

`render_event` of `notifications/service.rs`: the rules of an event that fire, and for each of them and each of its
channels a message, with the recipients that the rule stores and those that the dispatch adds.

The recipients of the dispatch are not added twice, and the addresses of users are taken out; but what a rule stores
may name somebody twice.  **`one_row_iff`** says when nobody gets two rows.

The tables are those of one tenant, which is all that the row-level security shows.  The crate `uuid` and the lowercase
of Unicode are parameters, and so are the texts of the branding. -/

namespace Mokosh.Notifications

open Workflows (Json)

/-! ### Tables -/

/-- A row of `notification_rules`. -/
structure RuleRow where
  id : Uuid
  name : String
  eventType : String
  conditions : Json
  channels : List String
  recipients : Json
  templateId : Option Uuid
  isActive : Option Bool

structure TemplateRow where
  id : Uuid
  subject : Option String
  bodyText : String
  bodyHtml : Option String
  isActive : Option Bool

/-- A row of `user_notification_preferences` or of `contact_notification_preferences`. -/
structure PreferenceRow where
  ownerId : Uuid
  eventType : String
  isEnabled : Option Bool
  channelTypes : List String

structure UserRow where
  id : Uuid
  email : String

structure DispatchDb where
  rules : List RuleRow
  templates : Keyed TemplateRow.id
  users : Keyed UserRow.id
  userPreferences : Keyed fun p : PreferenceRow => (p.ownerId, p.eventType)
  contactPreferences : Keyed fun p : PreferenceRow => (p.ownerId, p.eventType)

structure RenderedNotification where
  ruleName : String
  templateId : Uuid
  channel : String
  userIds : List Uuid
  emails : List String
  contactIds : List Uuid
  entityType : Option String
  entityId : Option Uuid
  subject : Option String
  bodyText : String
  bodyHtml : Option String
  unresolved : List String

/-! ### The context -/

def brandingKeys : List String :=
  ["msp_name", "msp_logo_url", "msp_primary_color", "msp_support_email", "msp_footer_line", "msp_footer_line_html"]

/-- `ensure_key`. -/
def ensureKey (obj : List (String × Json)) (entry : String × Json) : List (String × Json) :=
  if (obj.lookup entry.1).isSome then obj else SortedMap.insert entry obj

/-- `brandingText` is what the tenant has for a key, in a context. -/
def enrichWithBranding (brandingText : Json → String → String) (context : Json) : Json :=
  let context := Json.object (context.asObject.getD [])
  .object ((brandingKeys.map fun key => (key, Json.string (brandingText context key))).foldl ensureKey
    (context.asObject.getD []))

def withAppName (appName : String) (context : Json) : Json :=
  .object (SortedMap.insert ("app_name", .string appName) (context.asObject.getD []))

/-! ### Rules -/

def ruleConditionsMatch (conditions context : Json) : Bool :=
  match conditions.asObject with
  | none => true
  | some map => map.all fun (key, expected) =>
    match context.get key with
    | none => false
    | some actual =>
      match expected with
      | .array candidates => candidates.any fun c => c.same actual
      | other => other.same actual

def acceptsChannel (pref : Option (Option Bool × List String)) (channel : String) : Bool :=
  match pref with
  | none => true
  | some (enabled, channels) => enabled.getD true && channels.contains channel

/-- What is not in the list yet is added. -/
def pushNew {α : Type} [DecidableEq α] (xs : List α) : Option α → List α
  | none => xs
  | some x => if x ∈ xs then xs else xs ++ [x]

section

variable (parseStr : String → Except String Uuid) (toLowercase : String → String)

/-- `.and_then(|v| v.as_str()).and_then(|s| Uuid::parse_str(s).ok())`. -/
def uuidOf (v : Json) : Option Uuid := v.asStr.bind fun s => (parseStr s).toOption

/-- A list of identifiers that a rule stores; what is none is left out. -/
def storedIds (recipients : Json) (key : String) : List Uuid :=
  (((recipients.get key).bind Json.asArray).getD []).filterMap (uuidOf parseStr)

def storedEmails (recipients : Json) : List String :=
  (((recipients.get "emails").bind Json.asArray).getD []).filterMap Json.asStr

def ctxUserId (context : Json) : Option Uuid := (context.get "recipient_user_id").bind (uuidOf parseStr)

def ctxEmail (context : Json) : Option String := (context.get "recipient_email").bind Json.asStr

def ctxContactId (context : Json) : Option Uuid := (context.get "recipient_contact_id").bind (uuidOf parseStr)

def ctxEntityType (context : Json) : Option String :=
  ((context.get "entity_type").bind Json.asStr).filter fun s => !s.isEmpty && s.length ≤ 50

def ctxEntityId (context : Json) : Option Uuid := (context.get "entity_id").bind (uuidOf parseStr)

def userIdsOf (rule : RuleRow) (context : Json) : List Uuid :=
  pushNew (storedIds parseStr rule.recipients "user_ids") (ctxUserId parseStr context)

def contactIdsOf (rule : RuleRow) (context : Json) : List Uuid :=
  pushNew (storedIds parseStr rule.recipients "contacts") (ctxContactId parseStr context)

/-- `load_user_emails`. -/
def DispatchDb.loadUserEmails (db : DispatchDb) (userIds : List Uuid) : List String :=
  (db.users.rows.filter fun u => userIds.contains u.id).map UserRow.email

def emailsOf (db : DispatchDb) (rule : RuleRow) (context : Json) : List String :=
  let userIds := userIdsOf parseStr rule context
  let emails := pushNew (storedEmails rule.recipients) (ctxEmail context)
  if !userIds.isEmpty && !emails.isEmpty then
    let addresses := (db.loadUserEmails userIds).map toLowercase
    emails.filter fun e => !addresses.contains (toLowercase e)
  else emails

/-- `load_user_preferences` and `load_contact_preferences`, for the owners `ids`. -/
def loadPreferences (table : Keyed fun p : PreferenceRow => (p.ownerId, p.eventType)) (ids : List Uuid)
    (eventType : String) (id : Uuid) : Option (Option Bool × List String) :=
  if id ∈ ids then (table.find (id, eventType)).map fun p => (p.isEnabled, p.channelTypes) else none

/-- A rendered text, and the keys that were missing. -/
def renderTemplate (escape : Escape) (context : Json) (raw : String) : String × List String :=
  let rendered := renderTemplateAs context escape raw.toList
  (.ofList rendered.1, rendered.2.map .ofList)

/-- The message of a rule with its template on a channel. -/
def renderChannel (db : DispatchDb) (eventType : String) (context : Json) (rule : RuleRow) (template : TemplateRow)
    (channel : String) : RenderedNotification :=
  let userIds := userIdsOf parseStr rule context
  let contactIds := contactIdsOf parseStr rule context
  let prefs := loadPreferences db.userPreferences userIds eventType
  let contactPrefs := loadPreferences db.contactPreferences contactIds eventType
  let subject := template.subject.map (renderTemplate .text context)
  let body := renderTemplate .text context template.bodyText
  let bodyHtml := template.bodyHtml.map (renderTemplate .html context)
  { ruleName := rule.name
    templateId := template.id
    channel := channel
    userIds := userIds.filter fun uid => acceptsChannel (prefs uid) channel
    emails := if channel = "in_app" then [] else emailsOf parseStr toLowercase db rule context
    contactIds :=
      if channel = "in_app" then contactIds.filter fun cid => acceptsChannel (contactPrefs cid) channel else []
    entityType := ctxEntityType context
    entityId := ctxEntityId parseStr context
    subject := subject.map Prod.fst
    bodyText := body.1
    bodyHtml := bodyHtml.map Prod.fst
    unresolved := (body.2 ++ (bodyHtml.map Prod.snd).getD []).foldl (fun keys key => pushNew keys (some key))
      ((subject.map Prod.snd).getD []) }

/-- The template of a rule, if there is one that is active. -/
def DispatchDb.usableTemplate (db : DispatchDb) (rule : RuleRow) : Option TemplateRow :=
  (rule.templateId.bind db.templates.find).filter fun t => t.isActive.getD true

def renderEvent (brandingText : Json → String → String) (appName : String) (db : DispatchDb) (eventType : String)
    (context : Json) : List RenderedNotification :=
  let context := withAppName appName (enrichWithBranding brandingText context)
  let rules := db.rules.filter fun r => r.eventType = eventType && r.isActive = some true
  rules.flatMap fun rule =>
    if ruleConditionsMatch rule.conditions context then
      match db.usableTemplate rule with
      | none => []
      | some template => rule.channels.map (renderChannel parseStr toLowercase db eventType context rule template)
    else []

end

/-! ### What a message may say -/

section

variable (parseStr : String → Except String Uuid) (toLowercase : String → String)

/-- Nobody is named twice, and no user by their address. -/
structure OneRow (db : DispatchDb) (m : RenderedNotification) : Prop where
  users : m.userIds.Nodup
  contacts : m.contactIds.Nodup
  emails : (m.emails.map toLowercase).Nodup
  addresses : ∀ e ∈ m.emails, ∀ u ∈ db.users.rows, u.id ∈ m.userIds → toLowercase e ≠ toLowercase u.email

/-- Nobody is named on a channel that their preferences reject. -/
structure Wanted (db : DispatchDb) (eventType : String) (m : RenderedNotification) : Prop where
  users : ∀ p ∈ db.userPreferences.rows, p.eventType = eventType →
    acceptsChannel (some (p.isEnabled, p.channelTypes)) m.channel = false → p.ownerId ∉ m.userIds
  contacts : ∀ p ∈ db.contactPreferences.rows, p.eventType = eventType →
    acceptsChannel (some (p.isEnabled, p.channelTypes)) m.channel = false → p.ownerId ∉ m.contactIds

/-- The preferences of an owner accept the channel, or there are none. -/
def Accepts (table : Keyed fun p : PreferenceRow => (p.ownerId, p.eventType)) (eventType channel : String)
    (id : Uuid) : Bool :=
  acceptsChannel ((table.find (id, eventType)).map fun p => (p.isEnabled, p.channelTypes)) channel

/-- The address is one of a user that the rule or the dispatch names. -/
def IsUserAddress (db : DispatchDb) (rule : RuleRow) (context : Json) (e : String) : Prop :=
  ∃ u ∈ db.users.rows, (u.id ∈ storedIds parseStr rule.recipients "user_ids" ∨ ctxUserId parseStr context = some u.id) ∧
    toLowercase u.email = toLowercase e

/-- A rule stores nobody twice that a channel reaches, and no address that the dispatch adds in other letters. -/
structure Distinct (db : DispatchDb) (eventType : String) (context : Json) (rule : RuleRow) (channel : String) :
    Prop where
  users : ((storedIds parseStr rule.recipients "user_ids").filter
    (Accepts db.userPreferences eventType channel)).Nodup
  contacts : channel = "in_app" → ((storedIds parseStr rule.recipients "contacts").filter
    (Accepts db.contactPreferences eventType channel)).Nodup
  emails : channel ≠ "in_app" → (storedEmails rule.recipients).Pairwise fun e e' =>
    ¬IsUserAddress parseStr toLowercase db rule context e → toLowercase e ≠ toLowercase e'
  ctxEmail : channel ≠ "in_app" → ∀ a, ctxEmail context = some a → a ∉ storedEmails rule.recipients →
    ¬IsUserAddress parseStr toLowercase db rule context a →
    ∀ e ∈ storedEmails rule.recipients, toLowercase e ≠ toLowercase a

/-- The rule is one of the event, and it fires. -/
structure Fires (brandingText : Json → String → String) (appName : String) (db : DispatchDb) (eventType : String)
    (context : Json) (rule : RuleRow) : Prop where
  mem : rule ∈ db.rules
  eventType : rule.eventType = eventType
  active : rule.isActive = some true
  conditions : ruleConditionsMatch rule.conditions
    (withAppName appName (enrichWithBranding brandingText context)) = true
  template : (db.usableTemplate rule).isSome = true

end

/-! ### The context of the dispatch -/

theorem lookup_ensureKey {key : String} {entry : String × Json} (h : key ≠ entry.1) (obj : List (String × Json)) :
    (ensureKey obj entry).lookup key = obj.lookup key := by
  unfold ensureKey
  split
  · rfl
  · exact SortedMap.lookup_insert_of_ne h obj

theorem lookup_foldl_ensureKey {key : String} {entries : List (String × Json)} (h : ∀ e ∈ entries, key ≠ e.1)
    (obj : List (String × Json)) : (entries.foldl ensureKey obj).lookup key = obj.lookup key := by
  induction entries generalizing obj with
  | nil => rfl
  | cons e entries ih =>
      obtain ⟨he, hentries⟩ := List.forall_mem_cons.mp h
      rw [List.foldl_cons, ih hentries, lookup_ensureKey he]

theorem lookup_getD_asObject (context : Json) (key : String) :
    (context.asObject.getD []).lookup key = context.get key := by
  unfold Json.get
  cases context.asObject with
  | none => rfl
  | some obj => rfl

/-- The branding leaves the other keys alone. -/
theorem get_merged (brandingText : Json → String → String) (appName : String) (context : Json) {key : String}
    (h : key ∉ "app_name" :: brandingKeys) :
    (withAppName appName (enrichWithBranding brandingText context)).get key = context.get key := by
  rw [List.mem_cons, not_or] at h
  have hentries : ∀ e ∈ brandingKeys.map fun k =>
      (k, Json.string (brandingText (.object (context.asObject.getD [])) k)), key ≠ e.1 := fun e he heq => by
    obtain ⟨k, hk, rfl⟩ := List.mem_map.mp he
    exact h.2 (heq ▸ hk)
  refine (SortedMap.lookup_insert_of_ne h.1 _).trans ?_
  exact (lookup_foldl_ensureKey hentries _).trans (lookup_getD_asObject context key)

section

variable {parseStr : String → Except String Uuid} {toLowercase : String → String}

section

variable (brandingText : Json → String → String) (appName : String) (context : Json)

theorem ctxUserId_merged : ctxUserId parseStr (withAppName appName (enrichWithBranding brandingText context)) =
    ctxUserId parseStr context := by
  rw [ctxUserId, get_merged brandingText appName context (by decide)]
  rfl

theorem ctxEmail_merged : ctxEmail (withAppName appName (enrichWithBranding brandingText context)) =
    ctxEmail context := by
  rw [ctxEmail, get_merged brandingText appName context (by decide)]
  rfl

end

/-! ### Lists of recipients -/

theorem mem_pushNew {α : Type} [DecidableEq α] {xs : List α} {o : Option α} {a : α} :
    a ∈ pushNew xs o ↔ a ∈ xs ∨ o = some a := by
  cases o with
  | none => simp [pushNew]
  | some x =>
      dsimp only [pushNew]
      split
      · next h => exact ⟨.inl, fun ha => ha.elim id fun heq => Option.some.inj heq ▸ h⟩
      · rw [List.mem_append, List.mem_singleton, Option.some_inj, eq_comm]

/-- What is added once is no second time in the list. -/
theorem nodup_filter_pushNew {α : Type} [DecidableEq α] {xs : List α} {o : Option α} {p : α → Bool} :
    ((pushNew xs o).filter p).Nodup ↔ (xs.filter p).Nodup := by
  cases o with
  | none => exact Iff.rfl
  | some x =>
      dsimp only [pushNew]
      split
      · exact Iff.rfl
      · next h =>
          rw [List.filter_append]
          refine ⟨fun hnodup => (List.nodup_append.mp hnodup).1, fun hnodup => ?_⟩
          refine List.nodup_append.mpr ⟨hnodup, (List.nodup_singleton x).filter p, fun a ha b hb heq => h ?_⟩
          rw [← List.mem_singleton.mp (List.mem_of_mem_filter hb), ← heq]
          exact List.mem_of_mem_filter ha

theorem nodup_map_filter_iff {α β : Type} {f : α → β} {p : α → Bool} (hp : ∀ x y, f x = f y → p x = p y) (xs : List α) :
    ((xs.filter p).map f).Nodup ↔ xs.Pairwise fun x y => p x = true → f x ≠ f y := by
  unfold List.Nodup
  rw [List.pairwise_map, List.pairwise_filter]
  exact List.Pairwise.iff fun x y => ⟨fun h hx heq => h hx (hp x y heq ▸ hx) heq, fun h hx _ => h hx⟩

theorem nodup_map_filter_pushNew {α β : Type} [DecidableEq α] {f : α → β} {p : α → Bool}
    (hp : ∀ x y, f x = f y → p x = p y) {xs : List α} {o : Option α} :
    (((pushNew xs o).filter p).map f).Nodup ↔
      (xs.Pairwise fun x y => p x = true → f x ≠ f y) ∧
        ∀ a, o = some a → a ∉ xs → p a = true → ∀ x ∈ xs, f x ≠ f a := by
  rw [nodup_map_filter_iff hp]
  cases o with
  | none => simp [pushNew]
  | some x =>
      dsimp only [pushNew]
      split
      · next hin =>
          refine (and_iff_left fun a ha hnot => absurd ?_ hnot).symm
          rw [← Option.some.inj ha]
          exact hin
      · next hout =>
          rw [List.pairwise_append]
          refine and_congr_right fun _ => ⟨fun ⟨_, h⟩ a ha _ hpa y hy heq => ?_, fun h => ?_⟩
          · rw [← Option.some.inj ha] at hpa heq
            exact h y hy x (List.mem_singleton_self x) (hp y x heq ▸ hpa) heq
          · refine ⟨List.pairwise_singleton _ _, fun y hy b hb hpy heq => ?_⟩
            obtain rfl := List.mem_singleton.mp hb
            exact h b rfl hout (hp y b heq ▸ hpy) y hy heq

/-! ### The message of a channel -/

section

variable {db : DispatchDb} {eventType : String} {context : Json} {rule : RuleRow}

/-- The addresses of the users named, in small letters. -/
def userAddresses (parseStr : String → Except String Uuid) (toLowercase : String → String) (db : DispatchDb)
    (rule : RuleRow) (context : Json) : List String :=
  (db.loadUserEmails (userIdsOf parseStr rule context)).map toLowercase

theorem mem_userAddresses {e : String} :
    toLowercase e ∈ userAddresses parseStr toLowercase db rule context ↔
      IsUserAddress parseStr toLowercase db rule context e := by
  unfold userAddresses DispatchDb.loadUserEmails userIdsOf IsUserAddress
  rw [List.map_map, List.mem_map]
  refine exists_congr fun u => ?_
  rw [List.mem_filter, List.contains_iff_mem, mem_pushNew, and_assoc]
  rfl

/-- The addresses of users are taken out, whether or not there are any. -/
theorem emailsOf_eq : emailsOf parseStr toLowercase db rule context =
    (pushNew (storedEmails rule.recipients) (ctxEmail context)).filter fun e =>
      !(userAddresses parseStr toLowercase db rule context).contains (toLowercase e) := by
  unfold emailsOf
  dsimp only
  split
  · rfl
  · next h =>
      cases hemails : pushNew (storedEmails rule.recipients) (ctxEmail context) with
      | nil => rfl
      | cons e emails =>
          have hids : userIdsOf parseStr rule context = [] := by simpa [hemails] using h
          refine (List.filter_eq_self.mpr fun e _ => ?_).symm
          simp [userAddresses, DispatchDb.loadUserEmails, hids]

/-- A preference is loaded for everyone who is named. -/
theorem filter_loadPreferences (table : Keyed fun p : PreferenceRow => (p.ownerId, p.eventType)) (ids : List Uuid)
    (channel : String) :
    (ids.filter fun id => acceptsChannel (loadPreferences table ids eventType id) channel) =
      ids.filter (Accepts table eventType channel) :=
  List.filter_congr fun id hid => by
    unfold loadPreferences
    rw [if_pos hid]
    rfl

theorem notMem_of_rejects {table : Keyed fun p : PreferenceRow => (p.ownerId, p.eventType)} {ids : List Uuid}
    {channel : String} {p : PreferenceRow} (hp : p ∈ table.rows) (he : p.eventType = eventType)
    (h : acceptsChannel (some (p.isEnabled, p.channelTypes)) channel = false) :
    p.ownerId ∉ ids.filter (Accepts table eventType channel) := by
  intro hin
  have haccepts := (List.mem_filter.mp hin).2
  rw [Accepts, Keyed.find_eq_some_iff.mpr ⟨hp, by rw [he]⟩] at haccepts
  exact Bool.false_ne_true (h.symm.trans haccepts)

variable {template : TemplateRow} {channel : String}

theorem userIds_renderChannel :
    (renderChannel parseStr toLowercase db eventType context rule template channel).userIds =
      (userIdsOf parseStr rule context).filter (Accepts db.userPreferences eventType channel) :=
  filter_loadPreferences _ _ _

theorem contactIds_renderChannel :
    (renderChannel parseStr toLowercase db eventType context rule template channel).contactIds =
      if channel = "in_app" then
        (contactIdsOf parseStr rule context).filter (Accepts db.contactPreferences eventType channel)
      else [] := by
  unfold renderChannel
  dsimp only
  rw [filter_loadPreferences]

theorem emails_renderChannel :
    (renderChannel parseStr toLowercase db eventType context rule template channel).emails =
      if channel = "in_app" then [] else emailsOf parseStr toLowercase db rule context := rfl

/-- No preference is passed over. -/
theorem wanted_renderChannel :
    Wanted db eventType (renderChannel parseStr toLowercase db eventType context rule template channel) := by
  refine ⟨fun p hp he h => ?_, fun p hp he h => ?_⟩
  · rw [userIds_renderChannel]
    exact notMem_of_rejects hp he h
  · rw [contactIds_renderChannel]
    split
    · exact notMem_of_rejects hp he h
    · exact List.not_mem_nil

/-- No user is named by their address. -/
theorem addresses_renderChannel :
    ∀ e ∈ (renderChannel parseStr toLowercase db eventType context rule template channel).emails,
    ∀ u ∈ db.users.rows,
      u.id ∈ (renderChannel parseStr toLowercase db eventType context rule template channel).userIds →
      toLowercase e ≠ toLowercase u.email := by
  intro e he u hu hid heq
  rw [emails_renderChannel] at he
  rw [userIds_renderChannel] at hid
  split at he
  · cases he
  · rw [emailsOf_eq] at he
    have hnot := (List.mem_filter.mp he).2
    rw [Bool.not_eq_true', List.contains_eq_mem, decide_eq_false_iff_not, mem_userAddresses] at hnot
    exact hnot ⟨u, hu, mem_pushNew.mp (List.mem_of_mem_filter hid), heq.symm⟩

theorem not_contains_iff {e : String} :
    (!(userAddresses parseStr toLowercase db rule context).contains (toLowercase e)) = true ↔
      ¬IsUserAddress parseStr toLowercase db rule context e := by
  rw [Bool.not_eq_true', List.contains_eq_mem, decide_eq_false_iff_not, mem_userAddresses]

/-- The addresses that are left are distinct if those that were named are. -/
theorem nodup_emailsOf_iff :
    ((emailsOf parseStr toLowercase db rule context).map toLowercase).Nodup ↔
      ((storedEmails rule.recipients).Pairwise fun e e' =>
        ¬IsUserAddress parseStr toLowercase db rule context e → toLowercase e ≠ toLowercase e') ∧
      ∀ a, ctxEmail context = some a → a ∉ storedEmails rule.recipients →
        ¬IsUserAddress parseStr toLowercase db rule context a →
        ∀ e ∈ storedEmails rule.recipients, toLowercase e ≠ toLowercase a := by
  rw [emailsOf_eq, nodup_map_filter_pushNew fun x y heq => by rw [heq]]
  simp only [not_contains_iff]

theorem nodup_userIds_iff :
    (renderChannel parseStr toLowercase db eventType context rule template channel).userIds.Nodup ↔
      ((storedIds parseStr rule.recipients "user_ids").filter
        (Accepts db.userPreferences eventType channel)).Nodup := by
  rw [userIds_renderChannel]
  exact nodup_filter_pushNew

theorem nodup_contactIds_iff :
    (renderChannel parseStr toLowercase db eventType context rule template channel).contactIds.Nodup ↔
      (channel = "in_app" →
        ((storedIds parseStr rule.recipients "contacts").filter
          (Accepts db.contactPreferences eventType channel)).Nodup) := by
  rw [contactIds_renderChannel]
  split
  · next happ =>
      rw [forall_prop_of_true happ]
      exact nodup_filter_pushNew
  · next happ => exact iff_of_true List.nodup_nil fun heq => absurd heq happ

theorem nodup_emails_iff :
    ((renderChannel parseStr toLowercase db eventType context rule template channel).emails.map toLowercase).Nodup ↔
      (channel ≠ "in_app" → ((emailsOf parseStr toLowercase db rule context).map toLowercase).Nodup) := by
  rw [emails_renderChannel]
  split
  · next happ => exact iff_of_true List.nodup_nil fun hne => absurd happ hne
  · next happ => rw [forall_prop_of_true happ]

theorem oneRow_renderChannel_iff :
    OneRow toLowercase db (renderChannel parseStr toLowercase db eventType context rule template channel) ↔
      Distinct parseStr toLowercase db eventType context rule channel := by
  constructor
  · intro h
    have hemails := nodup_emails_iff.mp h.emails
    exact ⟨nodup_userIds_iff.mp h.users, nodup_contactIds_iff.mp h.contacts,
      fun happ => (nodup_emailsOf_iff.mp (hemails happ)).1, fun happ => (nodup_emailsOf_iff.mp (hemails happ)).2⟩
  · intro h
    exact ⟨nodup_userIds_iff.mpr h.users, nodup_contactIds_iff.mpr h.contacts,
      nodup_emails_iff.mpr fun happ => nodup_emailsOf_iff.mpr ⟨h.emails happ, h.ctxEmail happ⟩,
      addresses_renderChannel⟩

end

/-! ### All messages -/

section

variable {brandingText : Json → String → String} {appName : String} {db : DispatchDb} {eventType : String}
variable {context : Json}

/-- The messages are those of the rules that fire, one for each channel. -/
theorem mem_renderEvent_iff {m : RenderedNotification} :
    m ∈ renderEvent parseStr toLowercase brandingText appName db eventType context ↔
      ∃ rule template, Fires brandingText appName db eventType context rule ∧ db.usableTemplate rule = some template ∧
        ∃ channel ∈ rule.channels, renderChannel parseStr toLowercase db eventType
          (withAppName appName (enrichWithBranding brandingText context)) rule template channel = m := by
  unfold renderEvent
  rw [List.mem_flatMap]
  constructor
  · rintro ⟨rule, hrule, hm⟩
    obtain ⟨hmem, hactive⟩ := List.mem_filter.mp hrule
    simp only [Bool.and_eq_true, decide_eq_true_eq] at hactive
    split at hm
    · next hconditions =>
        cases htemplate : db.usableTemplate rule with
        | none =>
            rw [htemplate] at hm
            cases hm
        | some template =>
            rw [htemplate] at hm
            refine ⟨rule, template, ⟨hmem, hactive.1, hactive.2, hconditions, ?_⟩, htemplate, List.mem_map.mp hm⟩
            rw [htemplate]
            rfl
    · cases hm
  · rintro ⟨rule, template, hfires, htemplate, hchannel⟩
    refine ⟨rule, List.mem_filter.mpr ⟨hfires.mem, by simp [hfires.eventType, hfires.active]⟩, ?_⟩
    rw [if_pos hfires.conditions, htemplate]
    exact List.mem_map.mpr hchannel

theorem distinct_merged_iff {rule : RuleRow} {channel : String} :
    Distinct parseStr toLowercase db eventType (withAppName appName (enrichWithBranding brandingText context)) rule
      channel ↔ Distinct parseStr toLowercase db eventType context rule channel := by
  have haddress : IsUserAddress parseStr toLowercase db rule
      (withAppName appName (enrichWithBranding brandingText context)) =
      IsUserAddress parseStr toLowercase db rule context := by
    unfold IsUserAddress
    rw [ctxUserId_merged]
  constructor
  · intro h
    exact ⟨h.users, h.contacts, haddress ▸ h.emails,
      haddress ▸ ctxEmail_merged brandingText appName context ▸ h.ctxEmail⟩
  · intro h
    refine ⟨h.users, h.contacts, haddress ▸ h.emails, ?_⟩
    rw [haddress, ctxEmail_merged]
    exact h.ctxEmail

end

/-- **One row per person and channel.**  No message names anybody twice, a user by their address, or anybody who does
not want it, if and only if no rule that fires stores a recipient twice that one of its channels reaches, or the
address that the dispatch adds in other letters. -/
theorem one_row_iff (parseStr : String → Except String Uuid) (toLowercase : String → String)
    (brandingText : Json → String → String) (appName : String) (db : DispatchDb) (eventType : String) (context : Json) :
    (∀ m ∈ renderEvent parseStr toLowercase brandingText appName db eventType context,
      OneRow toLowercase db m ∧ Wanted db eventType m) ↔
      ∀ rule, Fires brandingText appName db eventType context rule → ∀ channel ∈ rule.channels,
        Distinct parseStr toLowercase db eventType context rule channel := by
  constructor
  · intro h rule hfires channel hchannel
    obtain ⟨template, htemplate⟩ := Option.isSome_iff_exists.mp hfires.template
    have hm := (h _ (mem_renderEvent_iff.mpr ⟨rule, template, hfires, htemplate, channel, hchannel, rfl⟩)).1
    exact distinct_merged_iff.mp (oneRow_renderChannel_iff.mp hm)
  · intro h m hm
    obtain ⟨rule, template, hfires, -, channel, hchannel, rfl⟩ := mem_renderEvent_iff.mp hm
    exact ⟨oneRow_renderChannel_iff.mpr (distinct_merged_iff.mpr (h rule hfires channel hchannel)),
      wanted_renderChannel⟩

end

namespace Twice

def parseStr (s : String) : Except String Uuid := if s = "7" then .ok 7 else .error "invalid length"

def template : TemplateRow :=
  { id := 3, subject := none, bodyText := "A ticket was assigned.", bodyHtml := none, isActive := some true }

/-- A rule that stores one user twice, and one address in two spellings. -/
def rule : RuleRow :=
  { id := 2
    name := "Assigned"
    eventType := "ticket.assigned"
    conditions := .object []
    channels := ["email"]
    recipients := .object [("emails", .array [.string "ops@example.test", .string "Ops@example.test"]),
      ("user_ids", .array [.string "7", .string "7"])]
    templateId := some 3
    isActive := some true }

def db : DispatchDb where
  rules := [rule]
  templates := { rows := [template], nodup := List.nodup_singleton _ }
  users := .empty
  userPreferences := .empty
  contactPreferences := .empty

/-- Lowercase, as far as the addresses need it. -/
def toLowercase (s : String) : String := .ofList (s.toList.map Char.toLower)

/-- The one message has the user twice, and the address twice. -/
theorem named_twice :
    (renderEvent parseStr toLowercase (fun _ _ => "") "Mokosh" db "ticket.assigned" (.object [])).map
        RenderedNotification.userIds = [[7, 7]] ∧
      ¬∀ m ∈ renderEvent parseStr toLowercase (fun _ _ => "") "Mokosh" db "ticket.assigned" (.object []),
        OneRow toLowercase db m ∧ Wanted db "ticket.assigned" m := by
  have huserIds : (renderEvent parseStr toLowercase (fun _ _ => "") "Mokosh" db "ticket.assigned" (.object [])).map
      RenderedNotification.userIds = [[7, 7]] := rfl
  refine ⟨huserIds, fun h => ?_⟩
  obtain ⟨m, hm, hids⟩ := List.mem_map.mp (huserIds ▸ List.mem_singleton_self [7, 7] :
    [7, 7] ∈ (renderEvent parseStr toLowercase (fun _ _ => "") "Mokosh" db "ticket.assigned" (.object [])).map
      RenderedNotification.userIds)
  have hnodup := (h m hm).1.users
  rw [hids] at hnodup
  exact absurd hnodup (by decide)

end Twice

end Mokosh.Notifications
