namespace BracketTally.Title

def name : String := "bracket-balance"

def version : String := "0.1.0"

end BracketTally.Title
