import CiRunner.Proofs.Server.Serving

/-!
# Notifications without a right signature

A receiver with a secret looks at the signature of a notification before it looks at anything else
of it.  A notification that is not signed with the digest of its body leaves the receiver and the
world as they are, and what it is answered depends only on whether its signature can be compared at
all.  So requests of this kind can be struck from any sequence of requests without a trace
(`Receiver.serveAll_eq_serveAll_filter`).
-/

namespace CiRunner

variable {τ : Type}

namespace Signature

/-- A signature that is not the one of the body is refused, or cannot be compared since it is not
ASCII. -/
lemma verify?_of_ne {secret : String} (hsecret : secret ≠ "") {body : List UInt8}
    {signature : Option String} (h : signature ≠ some (ofBody secret body)) :
    verify? body signature secret = if signature.all isAscii then some false else none := by
  unfold verify?
  rw [if_neg hsecret]
  split
  · rfl
  · rfl
  · rename_i given _
    have hne : (given == ofBody secret body) = false := by simpa using h
    cases hascii : isAscii given <;> simp [hascii, hne]

end Signature

/-! ## One notification -/

/-- A notification that is not signed with the digest of its body under a secret. -/
structure Request.IsUnsigned (secret : String) (q : Request) : Prop where
  /-- The method is that of notifications. -/
  method_eq : q.method = "POST"
  /-- The path is that of notifications. -/
  parts_eq : q.parts = ["", "webhooks", "github"]
  /-- The signature is missing or not the right one. -/
  not_signed : q.header? Notification.signatureHeader ≠ some (Signature.ofBody secret q.body)

instance (secret : String) (q : Request) : Decidable (q.IsUnsigned secret) :=
  decidable_of_iff (q.method = "POST" ∧ q.parts = ["", "webhooks", "github"] ∧
      q.header? Notification.signatureHeader ≠ some (Signature.ofBody secret q.body))
    ⟨fun ⟨hmethod, hparts, hsigned⟩ => ⟨hmethod, hparts, hsigned⟩,
      fun h => ⟨h.method_eq, h.parts_eq, h.not_signed⟩⟩

/-- Whether the signature of a request, if it has one, can be compared. -/
def Request.isComparable (q : Request) : Bool :=
  (q.header? Notification.signatureHeader).all Signature.isAscii

namespace Receiver

variable [Timeline τ]

/-- A request leaves no trace: it is answered, and that is all. -/
structure LeavesNoTrace (r : Receiver) (q : Request) (answer : Response) (host : Host τ)
    (w : World τ) : Prop where
  /-- The history is kept, and no run is queued. -/
  handle_eq : r.handle q host w = (.ok ⟨answer, r.history, []⟩, w)
  /-- The receiver and the world are afterwards as they were before. -/
  serve_eq : r.serve q host w = (.ok (answer, r), w)

/-- What a notification without a right signature is answered. -/
def answerToUnsigned (q : Request) : Response :=
  if q.isComparable then .refusal 401 "Invalid signature" else .internalError

/-- A notification without a right signature leaves no trace. -/
lemma leavesNoTrace_of_isUnsigned {r : Receiver} (hsecret : r.settings.webhookSecret ≠ "")
    {q : Request} (hq : q.IsUnsigned r.settings.webhookSecret) (host : Host τ) (w : World τ) :
    r.LeavesNoTrace q (answerToUnsigned q) host w := by
  -- the signature settles it before anything else of the notification is looked at
  have hnotify : (r.notify q : RunM τ Reply) = pure ⟨answerToUnsigned q, r.history, []⟩ := by
    rw [notify, Notification.decide, Signature.verify?_of_ne hsecret hq.not_signed,
      ← Request.isComparable, answerToUnsigned]
    cases q.isComparable <;> rfl
  have hhandle : (r.handle q : RunM τ Reply) = pure ⟨answerToUnsigned q, r.history, []⟩ := by
    rw [← hnotify, handle_eq_notify hq.method_eq hq.parts_eq]
  refine ⟨congrFun (congrFun hhandle host) w, ?_⟩
  rw [serve, hhandle]
  rfl

/-- Two notifications to receivers with secrets, neither of them signed with the digest of its body.
Neither leaves a trace: no history changes, no run is queued and nothing is done.  If the signatures
are missing, empty or ASCII, both get the same answer, whatever they bring and whatever the
receivers know. -/
theorem unsigned_notifications_without_influence {r r' : Receiver}
    (hsecret : r.settings.webhookSecret ≠ "") (hsecret' : r'.settings.webhookSecret ≠ "")
    {q q' : Request} (hq : q.IsUnsigned r.settings.webhookSecret)
    (hq' : q'.IsUnsigned r'.settings.webhookSecret) (host host' : Host τ) (w w' : World τ) :
    ∃ answer answer', r.LeavesNoTrace q answer host w ∧ r'.LeavesNoTrace q' answer' host' w' ∧
      (q.isComparable = true → q'.isComparable = true →
        answer = .refusal 401 "Invalid signature" ∧ answer' = answer) := by
  refine ⟨_, _, leavesNoTrace_of_isUnsigned hsecret hq host w,
    leavesNoTrace_of_isUnsigned hsecret' hq' host' w', fun hcomparable hcomparable' => ?_⟩
  rw [answerToUnsigned, answerToUnsigned, if_pos hcomparable, if_pos hcomparable']
  exact ⟨rfl, rfl⟩

/-- A receiver with a secret. -/
def withSecret : Receiver where
  settings := { webhookSecret := "s3cret" }
  workflows := [buildAndPack]
  history := { size := 50 }

/-- A notification of a push that is not signed. -/
def unsignedPush : Request where
  method := "POST"
  path := "/webhooks/github"
  headers := [("X-GitHub-Event", "push")]
  body := Text.Utf8.encode "\x7b\"ref\":\"refs/heads/main\"\x7d"

/-- A ping with the signature of another body. -/
def forgedPing : Request where
  method := "POST"
  path := "/webhooks/github?attempt=2"
  headers := [("X-GitHub-Event", "ping"), ("X-Hub-Signature-256", Signature.ofBody "s3cret" [0])]

/-- An unsigned push and a forged ping get the same answer. -/
theorem unsigned_push_and_forged_ping_without_influence :
    ∃ answer answer',
      withSecret.LeavesNoTrace unsignedPush answer (Host.scripted []) .initial ∧
      withSecret.LeavesNoTrace forgedPing answer' (Host.scripted []) .initial ∧
      answer = .refusal 401 "Invalid signature" ∧ answer' = answer := by
  have hpush : unsignedPush.IsUnsigned withSecret.settings.webhookSecret := by decide +kernel
  have hping : forgedPing.IsUnsigned withSecret.settings.webhookSecret := by decide +kernel
  obtain ⟨answer, answer', htrace, htrace', hanswers⟩ :=
    unsigned_notifications_without_influence (by decide) (by decide) hpush hping
      (Host.scripted []) (Host.scripted []) .initial .initial
  exact ⟨answer, answer', htrace, htrace', hanswers (by decide +kernel) (by decide +kernel)⟩

/-! ## Many requests -/

/-- Notifications without a right signature may be left out of a sequence of requests: the receiver
and the world after it, and the fault that ends it if there is one, are the same without them. -/
theorem serveAll_eq_serveAll_filter {r : Receiver} (hsecret : r.settings.webhookSecret ≠ "")
    (requests : List Request) (host : Host τ) (w : World τ) :
    r.serveAll requests host w =
      r.serveAll (requests.filter fun q => ¬q.IsUnsigned r.settings.webhookSecret) host w := by
  induction requests generalizing r w with
  | nil => rfl
  | cons q rest ih =>
    by_cases hq : q.IsUnsigned r.settings.webhookSecret
    · rw [List.filter_cons_of_neg (by simpa using hq), ← ih hsecret, serveAll, List.foldlM_cons,
        RunM.bind_apply, RunM.bind_apply, (leavesNoTrace_of_isUnsigned hsecret hq host w).serve_eq]
      rfl
    · rw [List.filter_cons_of_pos (by simpa using hq)]
      simp only [serveAll, List.foldlM_cons, RunM.bind_apply]
      rcases hserve : r.serve q host w with ⟨fault | ⟨answer, r'⟩, w'⟩
      · rfl
      · -- the next receiver has the same secret
        have hsettings : r'.settings = r.settings := by rw [eq_of_serve hserve]
        have hrest := ih (r := r') (hsettings ▸ hsecret) w'
        rw [hsettings] at hrest
        exact hrest

end Receiver

end CiRunner
