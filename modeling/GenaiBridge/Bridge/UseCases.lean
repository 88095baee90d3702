/-
The use cases of API keys: labels made into slugs, and the keys of each.

`strings.ToLower` is needed only as far as its result is a letter `a` to `z`: besides the
ASCII capitals, two letters have such a lower case.
-/
import GenaiBridge.Bridge.Analytics

namespace GenaiBridge

/-- `unicode.ToLower`, up to letters that are no part of a slug either way. -/
def lowerSlugChar (c : Char) : Char :=
  if 'A' ≤ c ∧ c ≤ 'Z' then Char.ofNat (c.toNat + 32)
  else if c = '\u0130' then 'i'
  else if c = '\u212a' then 'k'
  else c

/-- The characters a slug keeps. -/
def isSlugChar (c : Char) : Bool := ('a' ≤ c ∧ c ≤ 'z') ∨ ('0' ≤ c ∧ c ≤ '9')

/-- The loop of `slugifyUseCase`: each run of other characters becomes one underscore. -/
def slugChars : Bool → List Char → List Char
  | _, [] => []
  | prevUnderscore, c :: l =>
    if isSlugChar (lowerSlugChar c) then lowerSlugChar c :: slugChars false l
    else if prevUnderscore then slugChars true l
    else '_' :: slugChars true l

/-- An error of `resolveUseCases`. -/
inductive UseCaseError
  /-- `enabled loop %q must not also set settings.api_key_ids`. -/
  | apiKeyIDs (loop : String)
  /-- `label %q is empty after normalisation`. -/
  | emptySlug (label : String)
  /-- `entry %q has no api_key_ids`. -/
  | noIDs (label : String)
  /-- `labels %q and %q both normalise to %q`. -/
  | sameSlug (prev label slug : String)
  /-- `api_key_id %q appears in both %q and %q`. -/
  | sameID (id prev label : String)
deriving DecidableEq

/-- `slugifyUseCase`. -/
def slugifyUseCase (label : String) : Except UseCaseError String :=
  let slug := String.ofList
    (((slugChars false label.toList).dropWhile (· = '_')).reverse.dropWhile (· = '_')).reverse
  if slug = "" then .error (.emptySlug label) else .ok slug

/-- The inner loop of `resolveUseCases`: the ids of an entry, none of which was seen before. -/
def claimIDs (label : String) :
    Lib.SortedMap String String → List String → Except UseCaseError (Lib.SortedMap String String)
  | seen, [] => .ok seen
  | seen, id :: ids =>
    match seen.get? id with
    | some prev => .error (.sameID id prev label)
    | none => claimIDs label (seen.insert id label) ids

/-- The loop of `resolveUseCases`. -/
def resolveEntries : Lib.SortedMap String String → Lib.SortedMap String String →
    List APIKeyUseCase → Except UseCaseError (List ResolvedUseCase)
  | _, _, [] => .ok []
  | seenSlug, seenUUID, uc :: ucs => do
      let slug ← slugifyUseCase uc.label
      let csv := cleanAPIKeyIDs (String.intercalate "," uc.apiKeyIDs)
      if csv = "" then throw (.noIDs uc.label)
      if let some prev := seenSlug.get? slug then throw (.sameSlug prev uc.label slug)
      let seenUUID ← claimIDs uc.label seenUUID ((csv.toList.splitOn ',').map String.ofList)
      let rest ← resolveEntries (seenSlug.insert slug uc.label) seenUUID ucs
      return ⟨slug, csv⟩ :: rest

/-- `resolveUseCases`. -/
def resolveUseCases (sc : SourceConfig) : Except UseCaseError (List ResolvedUseCase) :=
  if sc.apiKeyUseCases = [] then .ok []
  else match sc.loops.entries.find? fun e =>
      e.2.enabled ∧ cleanAPIKeyIDs ((e.2.settings.get? "api_key_ids").getD "") ≠ "" with
    | some e => .error (.apiKeyIDs e.1)
    | none => resolveEntries .empty .empty sc.apiKeyUseCases

end GenaiBridge
