import CiRunner.Proofs.Server.Malformed
import CiRunner.Proofs.Server.Unsigned

/-!
# Right and wrong signatures

The signature of a body is a fixed word and sixty-four hexadecimal digits in lower case, so it can
always be compared with itself.  A receiver with a secret accepts it and nothing else.  It refuses
every other signature that can be compared, and no signature at all; but a signature that is not
ASCII cannot be compared, and then the receiver breaks off instead of refusing it.
-/

namespace CiRunner

variable {τ : Type}

/-! ## Digits -/

namespace Text

/-- The hexadecimal digits in lower case. -/
def lowerHex : List Char :=
  ['0', '1', '2', '3', '4', '5', '6', '7', '8', '9', 'a', 'b', 'c', 'd', 'e', 'f']

/-- The digit of a value below sixteen is one of them. -/
lemma hexDigit_mem_lowerHex {n : ℕ} (h : n < 16) : hexDigit n ∈ lowerHex := by
  interval_cases n <;> decide

/-- A number is written with these digits. -/
lemma mem_lowerHex_of_mem_hexDigits {width n : ℕ} {c : Char} (h : c ∈ hexDigits width n) :
    c ∈ lowerHex := by
  induction width generalizing n with
  | zero => cases h
  | succ width ih =>
    rcases List.mem_append.mp h with h | h
    · exact ih h
    · rw [List.mem_singleton.mp h]
      exact hexDigit_mem_lowerHex (Nat.mod_lt n (by decide))

/-- Bytes are written with these digits. -/
lemma mem_lowerHex_of_mem_hexOfBytes {bytes : List UInt8} {c : Char}
    (h : c ∈ (hexOfBytes bytes).toList) : c ∈ lowerHex := by
  rw [hexOfBytes, String.toList_ofList] at h
  obtain ⟨b, -, hc⟩ := List.mem_flatMap.mp h
  exact mem_lowerHex_of_mem_hexDigits hc

/-- Bytes are written with two digits each. -/
lemma length_hexOfBytes (bytes : List UInt8) :
    (hexOfBytes bytes).toList.length = 2 * bytes.length := by
  rw [hexOfBytes, String.toList_ofList]
  induction bytes with
  | nil => rfl
  | cons b bytes ih =>
    rw [List.flatMap_cons, List.length_append, length_hexDigits, ih, List.length_cons]
    ring

end Text

/-! ## Digests -/

namespace Digest

namespace Sha256

/-- A round keeps the number of words. -/
lemma length_round (state : List UInt32) (step : UInt32 × UInt32) :
    (round state step).length = state.length := by
  unfold round
  split <;> rfl

/-- Mixing a block in keeps the number of words. -/
lemma length_compress (state : List UInt32) (block : List UInt8) :
    (compress state block).length = state.length := by
  have hrounds : ∀ (steps : List (UInt32 × UInt32)) (s : List UInt32),
      (steps.foldl round s).length = s.length := by
    intro steps
    induction steps with
    | nil => exact fun s => rfl
    | cons step steps ih => exact fun s => (ih (round s step)).trans (length_round s step)
  rw [compress, List.length_zipWith, hrounds, min_self]

/-- So does mixing in many. -/
lemma length_absorb (state : List UInt32) (bytes : List UInt8) (n : ℕ) :
    (absorb state bytes n).length = state.length := by
  induction n generalizing state bytes with
  | zero => rfl
  | succ n ih => exact (ih _ _).trans (length_compress state _)

/-- A digest has thirty-two bytes: eight words of four. -/
lemma length_digest (message : List UInt8) : (digest message).length = 32 := by
  have hwords : ∀ ws : List UInt32, (ws.flatMap bytesOfWord).length = 4 * ws.length := by
    intro ws
    induction ws with
    | nil => rfl
    | cons word ws ih =>
      rw [List.flatMap_cons, List.length_append, ih, List.length_cons]
      simp only [bytesOfWord, List.length_cons, List.length_nil]
      ring
  rw [digest, hwords, length_absorb]
  rfl

end Sha256

/-- A keyed digest is written with sixty-four digits. -/
lemma Hmac.length_hexDigest (key message : List UInt8) :
    (hexDigest key message).toList.length = 64 := by
  rw [hexDigest, Text.length_hexOfBytes, digest, Sha256.length_digest]

end Digest

/-! ## The check -/

namespace Signature

variable {secret : String} {body : List UInt8} {signature : Option String}

/-- A text is a fixed word and sixty-four hexadecimal digits in lower case. -/
def IsTag (s : String) : Prop :=
  ∃ digits : List Char, s = "sha256=" ++ String.ofList digits ∧ digits.length = 64 ∧
    ∀ c ∈ digits, c ∈ Text.lowerHex

/-- The signature of a body has this form. -/
lemma isTag_ofBody (secret : String) (body : List UInt8) : IsTag (ofBody secret body) := by
  refine ⟨(Digest.Hmac.hexDigest (Text.Utf8.encode secret) body).toList, ?_,
    Digest.Hmac.length_hexDigest _ body, fun c hc => Text.mem_lowerHex_of_mem_hexOfBytes hc⟩
  rw [String.ofList_toList, ofBody]

/-- A text of this form is ASCII. -/
lemma IsTag.isAscii {s : String} (h : IsTag s) : isAscii s = true := by
  obtain ⟨digits, rfl, -, hdigits⟩ := h
  have hlower : ∀ c ∈ Text.lowerHex, c.toNat < 128 := by simp [Text.lowerHex]
  have hword : ∀ c ∈ "sha256=".toList, c.toNat < 128 := by simp
  rw [Signature.isAscii, List.all_eq_true, String.toList_append, String.toList_ofList (l := digits)]
  intro c hc
  rcases List.mem_append.mp hc with hc | hc
  · exact decide_eq_true (hword c hc)
  · exact decide_eq_true (hlower c (hdigits c hc))

/-- A text of this form is not empty. -/
lemma IsTag.ne_empty {s : String} (h : IsTag s) : s ≠ "" := by
  obtain ⟨digits, rfl, -⟩ := h
  intro hempty
  have hlist := congrArg String.toList hempty
  rw [String.toList_append] at hlist
  cases hlist

/-- Without a secret nothing is checked. -/
lemma verify?_of_no_secret (body : List UInt8) (signature : Option String) :
    verify? body signature "" = some true := rfl

/-- The signature of the body is accepted. -/
lemma verify?_ofBody (secret : String) (body : List UInt8) :
    verify? body (some (ofBody secret body)) secret = some true := by
  have htag := isTag_ofBody secret body
  unfold verify?
  split_ifs
  · rfl
  split
  · cases ‹some (ofBody secret body) = none›
  · rename_i hempty
    exact absurd (Option.some.inj hempty) htag.ne_empty
  · rename_i given _ hgiven
    cases Option.some.inj hgiven
    rw [if_pos htag.isAscii, beq_self_eq_true]

/-- The three outcomes of the check. -/
lemma verify?_cases (secret : String) (body : List UInt8) (signature : Option String) :
    ((secret = "" ∨ signature = some (ofBody secret body)) ∧
        verify? body signature secret = some true) ∨
      (secret ≠ "" ∧ signature ≠ some (ofBody secret body)) ∧
        verify? body signature secret = if signature.all isAscii then some false else none := by
  by_cases hsecret : secret = ""
  · subst hsecret
    exact Or.inl ⟨Or.inl rfl, verify?_of_no_secret body signature⟩
  by_cases hsigned : signature = some (ofBody secret body)
  · subst hsigned
    exact Or.inl ⟨Or.inr rfl, verify?_ofBody secret body⟩
  · exact Or.inr ⟨⟨hsecret, hsigned⟩, verify?_of_ne hsecret hsigned⟩

/-- A signature is accepted exactly if nothing is signed or it is the one of the body. -/
lemma verify?_eq_some_true_iff :
    verify? body signature secret = some true ↔
      secret = "" ∨ signature = some (ofBody secret body) := by
  rcases verify?_cases secret body signature with ⟨hright, h⟩ | ⟨hwrong, h⟩
  · exact iff_of_true h hright
  · refine iff_of_false (fun htrue => ?_) (not_or.mpr hwrong)
    rw [h] at htrue
    split_ifs at htrue
    exact absurd (Option.some.inj htrue) (by decide)

/-- A signature is refused exactly if it is a wrong one that is missing or ASCII. -/
lemma verify?_eq_some_false_iff :
    verify? body signature secret = some false ↔
      secret ≠ "" ∧ signature ≠ some (ofBody secret body) ∧
        ∀ given, signature = some given → isAscii given = true := by
  rw [← Option.all_eq_true]
  rcases verify?_cases secret body signature with ⟨hright, h⟩ | ⟨hwrong, h⟩
  · rw [h, ← and_assoc, ← not_or]
    exact iff_of_false (by decide) fun hnot => hnot.1 hright
  · rw [h, ← and_assoc, and_iff_right hwrong]
    split_ifs with hascii
    · exact iff_of_true rfl hascii
    · exact iff_of_false nofun hascii

/-- A signature cannot be compared exactly if something is signed and it is not ASCII. -/
lemma verify?_eq_none_iff :
    verify? body signature secret = none ↔
      secret ≠ "" ∧ ∃ given, signature = some given ∧ isAscii given = false := by
  rcases verify?_cases secret body signature with ⟨hright, h⟩ | ⟨hwrong, h⟩
  · rw [h]
    refine iff_of_false nofun ?_
    rintro ⟨hsecret, given, rfl, hascii⟩
    -- the signature of the body is ASCII
    cases Option.some.inj (hright.resolve_left hsecret)
    exact absurd (isTag_ofBody secret body).isAscii (by simp [hascii])
  · rw [h, and_iff_right hwrong.1]
    cases signature with
    | none => exact iff_of_false nofun nofun
    | some given => cases hascii : isAscii given <;> simp [hascii]

end Signature

/-! ## The answers -/

/-- A request is a notification with a body and a signature. -/
structure Request.Carries (body : List UInt8) (signature : Option String) (q : Request) :
    Prop where
  /-- The method is that of notifications. -/
  method_eq : q.method = "POST"
  /-- The path is that of notifications. -/
  parts_eq : q.parts = ["", "webhooks", "github"]
  /-- The body. -/
  body_eq : q.body = body
  /-- The signature, if there is one. -/
  signature_eq : q.header? Notification.signatureHeader = signature

namespace Receiver

/-- A notification is answered with 200 or 500, or as it was decided. -/
lemma notify_status (r : Receiver) (q : Request) (host : Host τ) (w : World τ) :
    ∃ reply w', r.notify q host w = (.ok reply, w') ∧
      (reply.response.status = 200 ∨ reply.response.status = 500 ∨
        ∃ detail, Notification.decide r.settings.webhookSecret r.workflows q =
          .refuse reply.response.status detail) := by
  cases hdecide : Notification.decide r.settings.webhookSecret r.workflows q with
  | refuse status detail =>
    exact ⟨_, w, by rw [notify, hdecide]; rfl, Or.inr (Or.inr ⟨detail, rfl⟩)⟩
  | dismiss status kind reason => exact ⟨_, w, by rw [notify, hdecide]; rfl, Or.inl rfl⟩
  | unmatched e => exact ⟨_, _, by rw [notify, hdecide]; rfl, Or.inl rfl⟩
  | fault reason => exact ⟨_, w, by rw [notify, hdecide]; rfl, Or.inr (Or.inl rfl)⟩
  | queue e started =>
    obtain ⟨⟨result, history, queued⟩, w', hqueue⟩ :=
      queueRuns_returns e r.history started host w
    cases result with
    | ok _ =>
      refine ⟨⟨answer "queued" (some e.kind) none queued, history, queued⟩, w', ?_, Or.inl rfl⟩
      simp only [notify, hdecide, RunM.bind_apply, hqueue]
      rfl
    | error _ =>
      refine ⟨⟨.internalError, history, []⟩, w', ?_, Or.inr (Or.inl rfl)⟩
      simp only [notify, hdecide, RunM.bind_apply, hqueue]
      rfl

/-- A notification is answered with 401 exactly if its signature is refused. -/
lemma status_eq_refused_iff {r : Receiver} {q : Request} {host : Host τ} {w w' : World τ}
    {reply : Reply} (hnotify : r.notify q host w = (.ok reply, w')) :
    reply.response.status = 401 ↔
      Signature.verify? q.body (q.header? Notification.signatureHeader) r.settings.webhookSecret =
        some false := by
  constructor
  · intro hstatus
    obtain ⟨reply', w'', hnotify', h⟩ := r.notify_status q host w
    cases hnotify.symm.trans hnotify'
    rw [hstatus] at h
    obtain ⟨detail, hrefuse⟩ : ∃ detail, _ = Decision.refuse 401 detail := by simpa using h
    unfold Notification.decide at hrefuse
    split at hrefuse
    · cases hrefuse
    · assumption
    · -- a signature that is accepted leaves other reasons to refuse only
      rcases Notification.status_of_decideBody_eq_refuse hrefuse with h | h <;> cases h
  · intro hrefused
    rw [notify, Notification.decide, hrefused] at hnotify
    cases hnotify
    rfl

/-- What the check of a signature says, for every secret, body and signature, and what a
notification with that body and signature is answered.  The signature of a body is a fixed word and
sixty-four hexadecimal digits in lower case; it is accepted, and nothing else is where something is
signed.  What is not accepted is refused, and the notification answered with 401 and forgotten,
exactly if the signature is missing or ASCII.  Any other signature cannot be compared: the receiver
breaks off and answers with 500. -/
theorem signature_checked_exactly_unless_not_ascii (secret : String) (body : List UInt8)
    (signature : Option String) :
    Signature.IsTag (Signature.ofBody secret body) ∧
      (Signature.verify? body signature secret = some true ↔
        secret = "" ∨ signature = some (Signature.ofBody secret body)) ∧
      (Signature.verify? body signature secret = some false ↔
        secret ≠ "" ∧ signature ≠ some (Signature.ofBody secret body) ∧
          ∀ given, signature = some given → Signature.isAscii given = true) ∧
      (Signature.verify? body signature secret = none ↔
        secret ≠ "" ∧ ∃ given, signature = some given ∧ Signature.isAscii given = false) ∧
      ∀ (r : Receiver) (q : Request), r.settings.webhookSecret = secret →
        q.Carries body signature → ∀ (host : Host τ) (w : World τ),
        ∃ reply w', r.handle q host w = (.ok reply, w') ∧
          (reply.response.status = 401 ↔ Signature.verify? body signature secret = some false) ∧
          (Signature.verify? body signature secret = some false →
            reply = ⟨.refusal 401 "Invalid signature", r.history, []⟩ ∧ w' = w) ∧
          (Signature.verify? body signature secret = none →
            reply = ⟨.internalError, r.history, []⟩ ∧ w' = w) := by
  refine ⟨Signature.isTag_ofBody secret body, Signature.verify?_eq_some_true_iff,
    Signature.verify?_eq_some_false_iff, Signature.verify?_eq_none_iff, ?_⟩
  rintro r q rfl ⟨hmethod, hparts, rfl, rfl⟩ host w
  obtain ⟨reply, w', hnotify, -⟩ := r.notify_status q host w
  rw [handle_eq_notify hmethod hparts]
  refine ⟨reply, w', hnotify, status_eq_refused_iff hnotify, fun hverify => ?_, fun hverify => ?_⟩
  all_goals
    rw [notify, Notification.decide, hverify] at hnotify
    cases hnotify
    exact ⟨rfl, rfl⟩

/-- A forged ping is refused, since its signature is ASCII. -/
theorem signature_checked_exactly_unless_not_ascii_of_forged_ping :
    ∃ reply w', withSecret.handle forgedPing (Host.scripted []) .initial = (.ok reply, w') ∧
      reply.response.status = 401 := by
  have hcarries : forgedPing.Carries [] (some (Signature.ofBody "s3cret" [0])) :=
    ⟨rfl, by decide +kernel, rfl, rfl⟩
  obtain ⟨-, -, -, -, hanswer⟩ := signature_checked_exactly_unless_not_ascii (τ := Float) "s3cret"
    [] (some (Signature.ofBody "s3cret" [0]))
  obtain ⟨reply, w', hhandle, hiff, -⟩ :=
    hanswer withSecret forgedPing rfl hcarries (Host.scripted []) .initial
  exact ⟨reply, w', hhandle, hiff.mpr (by decide +kernel)⟩

/-- A push whose signature ends in a letter with an accent. -/
def pushWithAccent : Request where
  method := "POST"
  path := "/webhooks/github"
  headers := [("X-GitHub-Event", "push"), ("X-Hub-Signature-256", "sha256=\u00e9")]
  body := Text.Utf8.encode "\x7b\"ref\":\"refs/heads/main\"\x7d"

/-- A wrong signature that is not ASCII is not found to be wrong, and the notification with it is
not answered with 401. -/
theorem accent_in_signature_not_refused :
    "sha256=\u00e9" ≠ Signature.ofBody "s3cret" pushWithAccent.body ∧
      Signature.verify? pushWithAccent.body (some "sha256=\u00e9") "s3cret" ≠ some false ∧
      ∃ reply w', withSecret.handle pushWithAccent (Host.scripted []) .initial = (.ok reply, w') ∧
        reply.response.status ≠ 401 := by
  have hverify : Signature.verify? pushWithAccent.body (some "sha256=\u00e9") "s3cret" = none := by
    decide +kernel
  have hheader : pushWithAccent.header? Notification.signatureHeader = some "sha256=\u00e9" := by
    decide +kernel
  have hhandle : (withSecret.handle pushWithAccent : RunM Float Reply) =
      withSecret.notify pushWithAccent :=
    handle_eq_notify rfl (by decide +kernel)
  obtain ⟨reply, w', hnotify, -⟩ :=
    withSecret.notify_status pushWithAccent (Host.scripted []) .initial
  refine ⟨fun h => ?_, by simp [hverify], reply, w', by rw [hhandle, hnotify], fun hstatus => ?_⟩
  · rw [h, Signature.verify?_ofBody] at hverify
    cases hverify
  · rw [status_eq_refused_iff hnotify, hheader] at hstatus
    cases hverify.symm.trans hstatus

end Receiver

end CiRunner
