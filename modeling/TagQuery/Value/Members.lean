import TagQuery.Value.Digest

namespace TagQuery

structure Members where
  entries : List (Digest × Value)

namespace Members

def empty : Members := ⟨[]⟩

def holds (members : Members) (value : Value) : Bool :=
  members.entries.any fun (digest, member) => digest == .ofValue value && member.same value

def add (members : Members) (value : Value) : Members :=
  if members.holds value then members else ⟨members.entries ++ [(.ofValue value, value)]⟩

def ofValues (values : List Value) : Members := values.foldl add empty

def same (members others : Members) : Bool :=
  members.entries.length == others.entries.length &&
    members.entries.all fun entry => others.holds entry.2

end Members

end TagQuery
