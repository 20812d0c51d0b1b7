import AiSoc.Library.PyStr
import AiSoc.Library.UrlSplit
import Mathlib.Data.List.Infix
import Mathlib.Tactic.Common

namespace Ml

open UrlSplit

section Plan

def DEFAULT_MAX_BYTES : Int :=
  5 * 1024 * 1024

def MAX_ALLOWED_BYTES : Int :=
  20 * 1024 * 1024

structure S3DatasetPlan where
  bucket : String
  key : String
  accountId : String
  maxBytes : Int
  deriving DecidableEq, Repr

def isBucketEnd (c : Char) : Bool :=
  ('a' ≤ c && c ≤ 'z') || ('0' ≤ c && c ≤ '9')

-- BUCKET_PATTERN.fullmatch
def bucketPattern (bucket : List Char) : Bool :=
  3 ≤ bucket.length && bucket.length ≤ 63 && bucket.head?.any isBucketEnd &&
    bucket.getLast?.any isBucketEnd && bucket.all fun c => isBucketEnd c || c = '.' || c = '-'

-- re.fullmatch(r"\d{12}", account_id)
def accountPattern (accountId : String) : Bool :=
  accountId.length = 12 && accountId.toList.all fun c => (PyStr.decimalValue c).isSome

def ambiguous (part : List Char) : Bool :=
  part = [] || part = ['.'] || part = ['.', '.']

def anyAmbiguous (path : List Char) : Bool :=
  (path.splitOn '/').any ambiguous

def trimmed (allowedPrefix : String) : List Char :=
  (PyStr.stripIf (· = '/') allowedPrefix).toList

def planS3Dataset (refusal : List Char → Option String) (uri accountId allowedBucket
    allowedPrefix : String) (maxBytes : Int) : Except String S3DatasetPlan := do
  let parsed ← urlsplit refusal uri
  if parsed.scheme ≠ "s3".toList ∨ parsed.query ≠ [] ∨ parsed.fragment ≠ [] ∨
      parsed.netloc = [] then
    throw "Expected an exact s3://bucket/key.jsonl URI without query or fragment"
  let bucket := parsed.netloc
  let key := parsed.path.dropWhile (· = '/')
  if ¬ bucketPattern bucket ∨ ['.', '.'] <:+: bucket ∨ bucket ≠ allowedBucket.toList then
    throw "S3 bucket is invalid or outside the explicit allowlist"
  if ¬ accountPattern accountId then
    throw "An exact 12-digit AWS account ID is required"
  let pre := trimmed allowedPrefix
  if pre = [] ∨ anyAmbiguous pre then
    throw "A non-empty, safe S3 prefix is required"
  if ¬ (pre ++ ['/']) <+: key ∨ ¬ ".jsonl".toList <:+ key then
    throw "Dataset must be a JSONL object below the allowlisted prefix"
  if anyAmbiguous key ∨ '%' ∈ key then
    throw "Dataset key must not contain ambiguous path segments or encoding"
  if ¬ (1 ≤ maxBytes ∧ maxBytes ≤ MAX_ALLOWED_BYTES) then
    throw "AWS dataset cap must be between 1 and 20971520 bytes"
  return ⟨String.ofList bucket, String.ofList key, accountId, maxBytes⟩

example : planS3Dataset (fun _ => none) "s3://soc-reviewed/training/approved.jsonl" "123456789012"
    "soc-reviewed" "training" 100000 =
    .ok ⟨"soc-reviewed", "training/approved.jsonl", "123456789012", 100000⟩ := by
  decide

end Plan

section Accepted

variable {refusal : List Char → Option String} {uri accountId allowedBucket allowedPrefix : String}
  {maxBytes : Int} {plan : S3DatasetPlan}

structure Checked (refusal : List Char → Option String) (uri allowedBucket allowedPrefix : String)
    (maxBytes : Int) (plan : S3DatasetPlan) (parsed : SplitResult) : Prop where
  split : urlsplit refusal uri = .ok parsed
  scheme : parsed.scheme = "s3".toList
  netloc : parsed.netloc ≠ []
  bucket : plan.bucket.toList = parsed.netloc
  key : plan.key.toList = parsed.path.dropWhile (· = '/')
  pattern : bucketPattern parsed.netloc = true
  allowed : plan.bucket = allowedBucket
  below : trimmed allowedPrefix ++ ['/'] <+: plan.key.toList
  jsonl : ".jsonl".toList <:+ plan.key.toList
  segments : anyAmbiguous plan.key.toList = false
  percent : '%' ∉ plan.key.toList
  positive : 1 ≤ plan.maxBytes
  capped : plan.maxBytes ≤ MAX_ALLOWED_BYTES
  bytes : plan.maxBytes = maxBytes

theorem plan_checked
    (h : planS3Dataset refusal uri accountId allowedBucket allowedPrefix maxBytes = .ok plan) :
    ∃ parsed, Checked refusal uri allowedBucket allowedPrefix maxBytes plan parsed := by
  unfold planS3Dataset at h
  cases hsplit : urlsplit refusal uri with
  | error e =>
      rw [hsplit] at h
      cases h
  | ok parsed =>
      rw [hsplit] at h
      refine ⟨parsed, ?_⟩
      simp only [bind, Except.bind, throw, throwThe, MonadExceptOf.throw, pure, Except.pure] at h
      split at h
      · cases h
      rename_i hshape
      split at h
      · cases h
      rename_i hbucket
      split at h
      · cases h
      split at h
      · cases h
      split at h
      · cases h
      rename_i hbelow
      split at h
      · cases h
      rename_i hsafe
      split at h
      · cases h
      rename_i hbytes
      cases h
      simp only [not_or, not_not, ne_eq] at hshape hbucket hbelow hsafe hbytes
      obtain ⟨hscheme, _, _, hnetloc⟩ := hshape
      obtain ⟨hpattern, _, hallowed⟩ := hbucket
      have hkey : (String.ofList (parsed.path.dropWhile (· = '/'))).toList =
          parsed.path.dropWhile (· = '/') := String.toList_ofList
      exact
        { split := hsplit
          scheme := hscheme
          netloc := hnetloc
          bucket := String.toList_ofList
          key := hkey
          pattern := hpattern
          allowed := by rw [hallowed, String.ofList_toList]
          below := hkey.symm ▸ hbelow.1
          jsonl := hkey.symm ▸ hbelow.2
          segments := hkey.symm ▸ Bool.eq_false_of_not_eq_true hsafe.1
          percent := hkey.symm ▸ hsafe.2
          positive := hbytes.1
          capped := hbytes.2
          bytes := rfl }

end Accepted

section Exact

structure Scoped (allowedBucket allowedPrefix : String) (maxBytes : Int) (plan : S3DatasetPlan) :
    Prop where
  bucket : plan.bucket = allowedBucket
  below : ∃ rest, rest ≠ [] ∧ plan.key.toList = trimmed allowedPrefix ++ '/' :: rest
  segments : ∀ part ∈ plan.key.toList.splitOn '/', part ≠ [] ∧ part ≠ ['.'] ∧ part ≠ ['.', '.']
  percent : '%' ∉ plan.key.toList
  jsonl : ".jsonl".toList <:+ plan.key.toList
  bytes : plan.maxBytes = maxBytes ∧ 1 ≤ maxBytes ∧ maxBytes ≤ MAX_ALLOWED_BYTES

def Named (uri : String) (plan : S3DatasetPlan) : Prop :=
  uri = "s3://" ++ plan.bucket ++ "/" ++ plan.key

instance (uri : String) (plan : S3DatasetPlan) : Decidable (Named uri plan) :=
  inferInstanceAs (Decidable (uri = "s3://" ++ plan.bucket ++ "/" ++ plan.key))

def rewritten (c : Char) : Bool :=
  isUnsafe c || c = '?' || c = '#'

def afterHost (uri : String) : List Char :=
  (uri.toList.drop 5).dropWhile (· ≠ '/')

def Spelled (uri : String) : Prop :=
  "s3://".toList <+: uri.toList ∧ (∀ c ∈ uri.toList, rewritten c = false) ∧
    ¬ ['/', '/'] <+: afterHost uri

variable {refusal : List Char → Option String} {uri allowedBucket allowedPrefix : String}
  {maxBytes : Int} {plan : S3DatasetPlan} {parsed : SplitResult}

theorem not_ambiguous_iff {part : List Char} :
    ambiguous part = false ↔ part ≠ [] ∧ part ≠ ['.'] ∧ part ≠ ['.', '.'] := by
  simp [ambiguous, and_assoc]

theorem checked_scoped
    (h : Checked refusal uri allowedBucket allowedPrefix maxBytes plan parsed) :
    Scoped allowedBucket allowedPrefix maxBytes plan := by
  obtain ⟨rest, hrest⟩ := h.below
  obtain ⟨name, hname⟩ := h.jsonl
  refine ⟨h.allowed, ⟨rest, ?_, ?_⟩, ?_, h.percent, h.jsonl, h.bytes, ?_, ?_⟩
  · rintro rfl
    have hlast := congrArg List.getLast? (hrest.trans hname.symm)
    simp at hlast
  · rw [← hrest, List.append_assoc, List.singleton_append]
  · intro part hpart
    have hall := List.any_eq_false.mp h.segments part hpart
    exact not_ambiguous_iff.mp (Bool.eq_false_of_not_eq_true hall)
  · exact h.bytes ▸ h.positive
  · exact h.bytes ▸ h.capped

theorem cleaned_of_safe {rest : List Char} (huri : uri.toList = 's' :: rest)
    (hsafe : ∀ c ∈ uri.toList, rewritten c = false) : cleaned uri = uri.toList := by
  rw [cleaned, huri, List.dropWhile_cons_of_neg (by decide), ← huri]
  refine List.filter_eq_self.mpr fun c hc => ?_
  have hc := hsafe c hc
  simp only [rewritten, Bool.or_eq_false_iff] at hc
  rw [hc.1.1]
  rfl

theorem checked_root
    (h : Checked refusal uri allowedBucket allowedPrefix maxBytes plan parsed)
    {before tail : List Char} (hparts : Parts uri parsed before tail) :
    ∃ rest, parsed.path = '/' :: rest := by
  rcases hparts.rooted with hnone | hroot
  · have hkey := h.key
    rw [hnone, List.dropWhile_nil] at hkey
    obtain ⟨rest, hrest⟩ := h.below
    rw [hkey] at hrest
    simp at hrest
  · exact hroot

theorem named_text
    (h : Checked refusal uri allowedBucket allowedPrefix maxBytes plan parsed) :
    Named uri plan ↔ uri.toList = "s3://".toList ++ (parsed.netloc ++ '/' :: plan.key.toList) := by
  rw [Named, ← String.toList_inj, String.toList_append, String.toList_append, String.toList_append,
    h.bucket, List.append_assoc, List.append_assoc]
  rfl

theorem afterHost_of_text {host path : List Char} (hhost : ∀ c ∈ host, isDelimiter c = false)
    (huri : uri.toList = "s3://".toList ++ (host ++ '/' :: path)) :
    afterHost uri = '/' :: path := by
  have hkeep : ∀ c ∈ host, decide (c ≠ '/') = true := by
    intro c hc
    have hdelimiter := hhost c hc
    simp only [isDelimiter, Bool.or_eq_false_iff, decide_eq_false_iff_not] at hdelimiter
    exact decide_eq_true hdelimiter.1.1
  have hdrop : uri.toList.drop 5 = host ++ '/' :: path := by
    rw [huri]
    rfl
  rw [afterHost, hdrop, List.dropWhile_append_of_pos hkeep]
  rfl

theorem parts_safe {before tail : List Char} (hparts : Parts uri parsed before tail) {c : Char}
    (hc : c ∈ parsed.netloc ++ parsed.path) : rewritten c = false := by
  have hmem : c ∈ cleaned uri := by
    rw [hparts.text]
    rcases List.mem_append.mp hc with hnetloc | hpath
    · simp [hnetloc]
    · simp [hpath]
  have hsafe : isUnsafe c = false := by simpa using (List.mem_filter.mp hmem).2
  have hmarks : c ≠ '?' ∧ c ≠ '#' := by
    rcases List.mem_append.mp hc with hnetloc | hpath
    · have hdelimiter := hparts.netloc c hnetloc
      simp only [isDelimiter, Bool.or_eq_false_iff, decide_eq_false_iff_not] at hdelimiter
      exact ⟨hdelimiter.1.2, hdelimiter.2⟩
    · exact ⟨fun heq => hparts.path.1 (heq ▸ hpath), fun heq => hparts.path.2 (heq ▸ hpath)⟩
  simp [rewritten, hsafe, hmarks.1, hmarks.2]

theorem spelled_of_named
    (h : Checked refusal uri allowedBucket allowedPrefix maxBytes plan parsed)
    {before tail : List Char} (hparts : Parts uri parsed before tail) (hnamed : Named uri plan) :
    Spelled uri := by
  have huri := (named_text h).mp hnamed
  refine ⟨⟨_, huri.symm⟩, ?_, ?_⟩
  · intro c hc
    rw [huri] at hc
    rcases List.mem_append.mp hc with hscheme | hrest
    · have hall : ("s3://".toList.all fun c => !rewritten c) = true := by decide
      simpa only [Bool.not_eq_true'] using List.all_eq_true.mp hall c hscheme
    · rcases List.mem_append.mp hrest with hnetloc | hkey
      · exact parts_safe hparts (List.mem_append_left _ hnetloc)
      · rcases List.mem_cons.mp hkey with rfl | hkey
        · rfl
        · rw [h.key] at hkey
          have hpath := (List.dropWhile_suffix _).subset hkey
          exact parts_safe hparts (List.mem_append_right _ hpath)
  · rw [afterHost_of_text hparts.netloc huri, h.key]
    rcases dropWhile_cases (fun c => decide (c = '/')) parsed.path with hnone | ⟨c, rest, hrest, hc⟩
    · rw [hnone]
      simp
    · rw [hrest]
      intro hprefix
      have hslash : '/' = c := by simpa using hprefix
      rw [← hslash] at hc
      cases hc

theorem named_of_spelled
    (h : Checked refusal uri allowedBucket allowedPrefix maxBytes plan parsed)
    {before tail : List Char} (hparts : Parts uri parsed before tail) (hspelled : Spelled uri) :
    Named uri plan := by
  obtain ⟨⟨rest, hrest⟩, hsafe, hslashes⟩ := hspelled
  have hclean := cleaned_of_safe hrest.symm hsafe
  have htail : tail = [] := by
    rcases hparts.tail with hnone | hmark | hmark
    · exact hnone
    · have hmem : '?' ∈ uri.toList := by
        rw [← hclean, hparts.text]
        simp [hmark]
      cases hsafe _ hmem
    · have hmem : '#' ∈ uri.toList := by
        rw [← hclean, hparts.text]
        simp [hmark]
      cases hsafe _ hmem
  have htext : uri.toList = before ++ ':' :: ('/' :: '/' :: (parsed.netloc ++ parsed.path)) := by
    rw [← hclean, hparts.text, htail]
    simp
  have hfirst : uri.toList = ['s', '3'] ++ ':' :: ('/' :: '/' :: rest) := hrest.symm
  have hcut : cut ':' (before ++ ':' :: ('/' :: '/' :: (parsed.netloc ++ parsed.path))) =
      (before, '/' :: '/' :: (parsed.netloc ++ parsed.path)) := cut_of_append hparts.beforeColon
  rw [← htext, hfirst, cut_of_append (by decide)] at hcut
  obtain rfl : rest = parsed.netloc ++ parsed.path := by simpa using congrArg Prod.snd hcut
  obtain ⟨path, hpath⟩ := checked_root h hparts
  rw [hpath] at hrest
  rw [afterHost_of_text hparts.netloc hrest.symm] at hslashes
  have hkey : plan.key.toList = path := by
    rw [h.key, hpath, List.dropWhile_cons_of_pos (by decide)]
    cases path with
    | nil => rfl
    | cons c path =>
        refine List.dropWhile_cons_of_neg fun heq => hslashes ?_
        rw [of_decide_eq_true heq]
        exact ⟨path, rfl⟩
  exact (named_text h).mpr (by rw [hkey]; exact hrest.symm)

theorem plan_names_object (refusal : List Char → Option String)
    (uri accountId allowedBucket allowedPrefix : String) (maxBytes : Int) (plan : S3DatasetPlan)
    (h : planS3Dataset refusal uri accountId allowedBucket allowedPrefix maxBytes = .ok plan) :
    Scoped allowedBucket allowedPrefix maxBytes plan ∧ (Named uri plan ↔ Spelled uri) := by
  obtain ⟨parsed, hchecked⟩ := plan_checked h
  have hscheme : parsed.scheme ≠ [] := by
    rw [hchecked.scheme]
    decide
  obtain ⟨before, tail, hparts⟩ := urlsplit_parts hchecked.split hscheme hchecked.netloc
  refine ⟨checked_scoped hchecked, ?_, ?_⟩
  · exact spelled_of_named hchecked hparts
  · exact named_of_spelled hchecked hparts

def reviewed : S3DatasetPlan :=
  ⟨"soc-reviewed", "training/approved.jsonl", "123456789012", DEFAULT_MAX_BYTES⟩

theorem reviewed_accepted : Scoped "soc-reviewed" "/training/" DEFAULT_MAX_BYTES reviewed ∧
    (Named "s3://soc-reviewed/training/approved.jsonl" reviewed ↔
      Spelled "s3://soc-reviewed/training/approved.jsonl") :=
  plan_names_object (fun _ => none) "s3://soc-reviewed/training/approved.jsonl" "123456789012"
    "soc-reviewed" "/training/" DEFAULT_MAX_BYTES reviewed (by decide)

theorem other_object_planned :
    (planS3Dataset (fun _ => none) "s3://soc-reviewed//training/approved.jsonl" "123456789012"
        "soc-reviewed" "/training/" DEFAULT_MAX_BYTES = .ok reviewed ∧
      ¬ Named "s3://soc-reviewed//training/approved.jsonl" reviewed) ∧
    (planS3Dataset (fun _ => none) "s3://soc-reviewed/train\ning/approved.jsonl" "123456789012"
        "soc-reviewed" "/training/" DEFAULT_MAX_BYTES = .ok reviewed ∧
      ¬ Named "s3://soc-reviewed/train\ning/approved.jsonl" reviewed) := by
  decide

end Exact

end Ml
