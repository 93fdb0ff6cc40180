/-!
# Companion keys

A call that assigns its result to a state key also has a status and an error
key, which the executor keeps: the data key with a suffix. No key is both, and
the data key can be read off either of them.
-/

namespace IntentGraph.Key

/-- The suffix of a status key. -/
def statusSuffix : String := "Status"

/-- The suffix of an error key. -/
def errorSuffix : String := "Error"

/-- The key that holds the status of a call that assigns `key`. -/
def status (key : String) : String := key ++ statusSuffix

/-- The key that holds the error of a call that assigns `key`. -/
def error (key : String) : String := key ++ errorSuffix

/-- The key without the suffix of status keys, if it has it. -/
def statusBase? (key : String) : Option String :=
  (statusSuffix.toList.isSuffixOf? key.toList).map String.ofList

theorem error_injective {k k' : String} (h : error k = error k') : k = k' := by
  have hlist := congrArg String.toList h
  rw [error, error, String.toList_append, String.toList_append] at hlist
  exact String.toList_injective (List.append_cancel_right hlist)

theorem status_ne_error (k k' : String) : status k ≠ error k' := by
  intro h
  have hlast := congrArg (fun key : String => key.toList.getLast?) h
  simp [status, error, statusSuffix, errorSuffix] at hlast

end IntentGraph.Key
