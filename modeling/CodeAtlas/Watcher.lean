import CodeAtlas.Json.Writer
import CodeAtlas.Services

/-!
# Watching repositories

Which files the last commit of a working copy changed, and notices that a repository was pushed to.
-/

namespace CodeAtlas.Watcher

open Act

/-- The files that the last commit changed, one name on a line. -/
def changedFiles : Act Json := do
  command .changes
  let names := Text.splitAt '\n' (← services).changes.toList
  let listed := Json.texts (names.map String.ofList)
  print listed.display
  return .object [("changed_Files", listed)]

/-- Takes a notice about an event, with the headers it came with. -/
def notice (headers payload event : Json) : Act Json := do
  print headers.phrase
  print ("Received event:" ++ event.phrase)
  print "================================="
  print ("CommitID:" ++ (← access (payload.field "after")).phrase)
  if event.same (.text "push") then print "New push detected!"
  else if event.same (.text "pull") then print "Pull request Detected"
  return .object [("message", .text "success")]

end CodeAtlas.Watcher
