/-!
# Playhouse.Grammar.Lexicon — the words of the language

An entry is the list of the words it is written with. Where two entries begin alike, the order decides which is
tried first. A word is compared without regard to case and kept in the spelling given here.
-/

namespace Playhouse.Grammar.Lexicon

/-- The forms of *to be*. -/
def formsOfBe : List (List String) :=
  [["am"], ["are"], ["art"], ["be"], ["is"]]

/-- The articles. -/
def articles : List (List String) :=
  [["a"], ["an"], ["the"]]

/-- The speaker of a sentence. -/
def firstPersons : List (List String) :=
  [["I"], ["me"]]

/-- The speaker, reflexive. -/
def firstPersonReflexives : List (List String) :=
  [["myself"]]

/-- What belongs to the speaker. -/
def firstPersonPossessives : List (List String) :=
  [["mine"], ["my"]]

/-- The one spoken to. -/
def secondPersons : List (List String) :=
  [["thee"], ["thou"], ["you"]]

/-- The one spoken to, reflexive. -/
def secondPersonReflexives : List (List String) :=
  [["thyself"], ["yourself"]]

/-- What belongs to the one spoken to. -/
def secondPersonPossessives : List (List String) :=
  [["thine"], ["thy"], ["your"]]

/-- What belongs to others. -/
def thirdPersonPossessives : List (List String) :=
  [["his"], ["her"], ["its"], ["their"]]

/-- Adjectives of bad things. -/
def negativeAdjectives : List (List String) :=
  [["bad"], ["cowardly"], ["cursed"], ["damned"], ["dirty"], ["disgusting"], ["distasteful"], ["dusty"],
   ["evil"], ["fat-kidneyed"], ["fatherless"], ["fat"], ["foul"], ["hairy"], ["half-witted"], ["horrible"],
   ["horrid"], ["infected"], ["lying"], ["miserable"], ["misused"], ["oozing"], ["rotten"],
   ["smelly"], ["snotty"], ["sorry"], ["stinking"], ["stuffed"], ["stupid"], ["vile"], ["villainous"],
   ["worried"]]

/-- Adjectives of anything. -/
def neutralAdjectives : List (List String) :=
  [["big"], ["black"], ["blue"], ["bluest"], ["bottomless"], ["furry"], ["green"], ["hard"], ["huge"],
   ["large"], ["little"], ["normal"], ["old"], ["purple"], ["red"], ["rural"], ["small"], ["tiny"], ["white"],
   ["yellow"]]

/-- Adjectives of good things. -/
def positiveAdjectives : List (List String) :=
  [["amazing"], ["beautiful"], ["blossoming"], ["bold"], ["brave"], ["charming"], ["clearest"], ["cunning"],
   ["cute"], ["delicious"], ["embroidered"], ["fair"], ["fine"], ["gentle"], ["golden"], ["good"],
   ["handsome"], ["happy"], ["healthy"], ["honest"], ["lovely"], ["loving"], ["mighty"], ["noble"],
   ["peaceful"], ["pretty"], ["prompt"], ["proud"], ["reddest"], ["rich"], ["smooth"], ["sunny"], ["sweet"],
   ["sweetest"], ["trustworthy"], ["warm"]]

/-- Nouns of bad things: they are worth minus one. -/
def negativeNouns : List (List String) :=
  [["Hell"], ["Microsoft"], ["bastard"], ["beggar"], ["blister"], ["codpiece"], ["coward"], ["curse"],
   ["death"], ["devil"], ["draught"], ["famine"], ["flirt-gill"], ["goat"], ["hate"], ["hog"], ["hound"],
   ["leech"], ["lie"], ["pig"], ["plague"], ["starvation"], ["toad"], ["war"], ["wolf"]]

/-- Nouns of things neither good nor bad: they are worth one. -/
def neutralNouns : List (List String) :=
  [["animal"], ["aunt"], ["brother"], ["cat"], ["chihuahua"], ["cousin"], ["cow"], ["daughter"], ["door"],
   ["face"], ["father"], ["fellow"], ["granddaughter"], ["grandfather"], ["grandmother"], ["grandson"],
   ["hair"], ["hamster"], ["horse"], ["lamp"], ["lantern"], ["mistletoe"], ["moon"], ["morning"], ["mother"],
   ["nephew"], ["niece"], ["nose"], ["purse"], ["road"], ["roman"], ["sister"], ["sky"], ["son"],
   ["squirrel"], ["stone", "wall"], ["thing"], ["town"], ["tree"], ["uncle"], ["wind"]]

/-- Nouns of good things: they are worth one. -/
def positiveNouns : List (List String) :=
  [["Heaven"], ["King"], ["Lord"], ["angel"], ["flower"], ["happiness"], ["joy"], ["plum"],
   ["summer's", "day"], ["hero"], ["rose"], ["kingdom"], ["pony"]]

/-- The characters a play may have. -/
def characters : List (List String) :=
  [["Achilles"], ["Adonis"], ["Adriana"], ["Aegeon"], ["Aemilia"], ["Agamemnon"], ["Agrippa"], ["Ajax"],
   ["Alonso"], ["Andromache"], ["Angelo"], ["Antiochus"], ["Antonio"], ["Arthur"], ["Autolycus"],
   ["Balthazar"], ["Banquo"], ["Beatrice"], ["Benedick"], ["Benvolio"], ["Bianca"], ["Brabantio"], ["Brutus"],
   ["Capulet"], ["Cassandra"], ["Cassius"], ["Christopher", "Sly"], ["Cicero"], ["Claudio"], ["Claudius"],
   ["Cleopatra"], ["Cordelia"], ["Cornelius"], ["Cressida"], ["Cymberline"], ["Demetrius"], ["Desdemona"],
   ["Dionyza"], ["Doctor", "Caius"], ["Dogberry"], ["Don", "John"], ["Don", "Pedro"], ["Donalbain"],
   ["Dorcas"], ["Duncan"], ["Egeus"], ["Emilia"], ["Escalus"], ["Falstaff"], ["Fenton"], ["Ferdinand"],
   ["Ford"], ["Fortinbras"], ["Francisca"], ["Friar", "John"], ["Friar", "Laurence"], ["Gertrude"],
   ["Goneril"], ["Hamlet"], ["Hecate"], ["Hector"], ["Helen"], ["Helena"], ["Hermia"], ["Hermonie"],
   ["Hippolyta"], ["Horatio"], ["Imogen"], ["Isabella"], ["John", "of", "Gaunt"], ["John", "of", "Lancaster"],
   ["Julia"], ["Juliet"], ["Julius", "Caesar"], ["King", "Henry"], ["King", "John"], ["King", "Lear"],
   ["King", "Richard"], ["Lady", "Capulet"], ["Lady", "Macbeth"], ["Lady", "Macduff"], ["Lady", "Montague"],
   ["Lennox"], ["Leonato"], ["Luciana"], ["Lucio"], ["Lychorida"], ["Lysander"], ["Macbeth"], ["Macduff"],
   ["Malcolm"], ["Mariana"], ["Mark", "Antony"], ["Mercutio"], ["Miranda"], ["Mistress", "Ford"],
   ["Mistress", "Overdone"], ["Mistress", "Page"], ["Montague"], ["Mopsa"], ["Oberon"], ["Octavia"],
   ["Octavius", "Caesar"], ["Olivia"], ["Ophelia"], ["Orlando"], ["Orsino"], ["Othello"], ["Page"],
   ["Pantino"], ["Paris"], ["Pericles"], ["Pinch"], ["Polonius"], ["Pompeius"], ["Portia"], ["Priam"],
   ["Prince", "Henry"], ["Prospero"], ["Proteus"], ["Publius"], ["Puck"], ["Queen", "Elinor"], ["Regan"],
   ["Robin"], ["Romeo"], ["Rosalind"], ["Sebastian"], ["Shallow"], ["Shylock"], ["Slender"], ["Solinus"],
   ["Stephano"], ["Thaisa"], ["The", "Abbot", "of", "Westminster"], ["The", "Apothecary"],
   ["The", "Archbishop", "of", "Canterbury"], ["The", "Duke", "of", "Milan"], ["The", "Duke", "of", "Venice"],
   ["The", "Ghost"], ["Theseus"], ["Thurio"], ["Timon"], ["Titania"], ["Titus"], ["Troilus"], ["Tybalt"],
   ["Ulysses"], ["Valentine"], ["Venus"], ["Vincentio"], ["Viola"]]

end Playhouse.Grammar.Lexicon
